import Legator.Net

/-!
# Connectivity checks

The connectivity manager checks the network layer before a run: direct
connectivity is always ready, a Headscale or Tailscale mesh is ready when its
sidecar answers on the local API port or socket, and every other type is not.
Endpoints are checked by reading a host and a port out of their URL with
`extractHostPort` and dialling `JoinHostPort(host, port)`.

The dials and the clock are the parameter `Network`. `PreRunCheck` fails only
when the layer is not ready: the endpoints it dials are logged, never returned,
so `preRunCheck` does not take them.

The endpoint check dials exactly the address a URL spells, `host:port` or
`[host]:port`, behind any of the four schemes or none (`checkEndpoint_written_port`),
and the scheme's default port when the URL gives none
(`checkEndpoint_default_port`).
-/

namespace Legator.Connectivity

open Legator.Skills (index trimPrefixOf trimPrefixOf_append)
open Legator.Net

/-- The field of `ConnectivitySpec` the checks read. -/
structure ConnectivitySpec where
  type : String
  deriving DecidableEq, Repr

/-- The field of `EndpointSpec` the checks read. -/
structure EndpointSpec where
  url : String
  deriving DecidableEq, Repr

/-- `ConnectivityStatus`; its `Endpoints` map is never filled here. -/
structure ConnectivityStatus where
  type : String
  ready : Bool
  message : String
  deriving DecidableEq, Repr

/-- `EndpointStatus`, with the latency in nanoseconds. -/
structure EndpointStatus where
  reachable : Bool
  latency : Int
  error : String
  deriving DecidableEq, Repr

/-- What the checks meet outside the package: `net.DialTimeout` on a network and
an address, with the text of its error, and the time a dial took. -/
structure Network where
  dial : String → String → Except String Unit
  elapsed : Int

/-! ## The connectivity layer -/

/-- `checkTailscaleHealth`: the sidecar's local API port, then its socket. -/
def checkTailscaleHealth (net : Network) (spec : ConnectivitySpec) : ConnectivityStatus :=
  let ready := ⟨spec.type, true, spec.type ++ " sidecar is running and connected"⟩
  match net.dial "tcp" "127.0.0.1:41112" with
  | .ok () => ready
  | .error _ =>
      match net.dial "unix" "/var/run/tailscale/tailscaled.sock" with
      | .ok () => ready
      | .error err => ⟨spec.type, false, "Tailscale sidecar not reachable: " ++ err⟩

/-- `CheckHealth`. -/
def checkHealth (net : Network) : Option ConnectivitySpec → ConnectivityStatus
  | none => ⟨"direct", true, "Direct connectivity (no mesh VPN)"⟩
  | some spec =>
      if spec.type = "direct" then ⟨"direct", true, "Direct connectivity configured"⟩
      else if spec.type = "headscale" ∨ spec.type = "tailscale" then checkTailscaleHealth net spec
      else ⟨spec.type, false, "Unknown connectivity type: " ++ spec.type⟩

/-- `PreRunCheck`, without the endpoints: it dials them and logs the ones that
do not answer, and returns the same either way. -/
def preRunCheck (net : Network) (spec : Option ConnectivitySpec) : Except String Unit :=
  let health := checkHealth net spec
  if !health.ready then .error ("connectivity not ready: " ++ health.message) else .ok ()

/-! ## Endpoints -/

/-- The schemes `extractHostPort` strips, in this order. -/
def schemePrefixes : List String :=
  ["https://", "http://", "tcp://", "ssh://"]

/-- The port `extractHostPort` takes for a URL that gives none. -/
def defaultPort (url : String) : String :=
  if "https://".data.isPrefixOf url.data then "443"
  else if "http://".data.isPrefixOf url.data then "80"
  else if "ssh://".data.isPrefixOf url.data then "22"
  else "443"

/-- `extractHostPort`: strip the schemes, cut at the first `/`, and split at the
port, or take the scheme's default port when there is none. -/
def extractHostPort (url : String) : String × String :=
  let u := schemePrefixes.foldl (fun u scheme => trimPrefixOf scheme.data u) url.data
  let u := match index ['/'] u with
    | some idx => u.take idx
    | none => u
  match splitHostPort u with
  | .ok (host, port) => (⟨host⟩, ⟨port⟩)
  | .error _ => (⟨u⟩, defaultPort url)

/-! ### What `extractHostPort` reads -/

/-- `t://` is no prefix of a text whose first `:` or `/`, after a part `h` with
neither, is a `/`, or a `:` that no `/` follows, when `t` has neither either. -/
theorem not_scheme_prefix {x : List Char} : ∀ {t h y : List Char} {d : Char}, ':' ∉ t → '/' ∉ t →
    ':' ∉ h → '/' ∉ h → (d = ':' ∧ y.head? ≠ some '/') ∨ d = '/' →
    ¬ (t ++ ':' :: '/' :: x) <+: (h ++ d :: y)
  | [], [], y, d, _, _, _, _, stop, starts => by
      rw [List.nil_append, List.nil_append, List.cons_prefix_cons] at starts
      obtain ⟨rfl, slash⟩ := starts
      obtain ⟨rest, rfl⟩ := slash
      simp at stop
  | [], e :: h, _, _, _, _, noColon, _, _, starts => by
      rw [List.nil_append, List.cons_append, List.cons_prefix_cons] at starts
      exact noColon (starts.1 ▸ List.mem_cons_self _ _)
  | e :: t, [], _, d, tColon, tSlash, _, _, stop, starts => by
      rw [List.nil_append, List.cons_append, List.cons_prefix_cons] at starts
      rcases stop with ⟨rfl, -⟩ | rfl
      · exact tColon (starts.1 ▸ List.mem_cons_self _ _)
      · exact tSlash (starts.1 ▸ List.mem_cons_self _ _)
  | e :: t, e' :: h, _, _, tColon, tSlash, hColon, hSlash, stop, starts => by
      rw [List.cons_append, List.cons_append, List.cons_prefix_cons] at starts
      exact not_scheme_prefix (List.not_mem_of_not_mem_cons tColon) (List.not_mem_of_not_mem_cons tSlash)
        (List.not_mem_of_not_mem_cons hColon) (List.not_mem_of_not_mem_cons hSlash) stop starts.2

theorem schemePrefixes_split : ∀ scheme ∈ schemePrefixes,
    ∃ t, scheme.data = t ++ ':' :: '/' :: ['/'] ∧ ':' ∉ t ∧ '/' ∉ t := by
  simp only [schemePrefixes, List.mem_cons, List.not_mem_nil, or_false]
  rintro scheme (rfl | rfl | rfl | rfl)
  · exact ⟨"https".data, rfl, by decide, by decide⟩
  · exact ⟨"http".data, rfl, by decide, by decide⟩
  · exact ⟨"tcp".data, rfl, by decide, by decide⟩
  · exact ⟨"ssh".data, rfl, by decide, by decide⟩

/-- No scheme starts a text whose first `:` or `/` is a `/`, or a `:` that no
`/` follows. -/
theorem schemePrefixes_not_prefix {h y : List Char} {d : Char} (hColon : ':' ∉ h) (hSlash : '/' ∉ h)
    (stop : (d = ':' ∧ y.head? ≠ some '/') ∨ d = '/') :
    ∀ scheme ∈ schemePrefixes, scheme.data.isPrefixOf (h ++ d :: y) = false := by
  intro scheme known
  obtain ⟨t, spelled, tColon, tSlash⟩ := schemePrefixes_split scheme known
  rw [Bool.eq_false_iff, ne_eq, List.isPrefixOf_iff_prefix, spelled]
  exact not_scheme_prefix tColon tSlash hColon hSlash stop

theorem trimPrefixOf_of_isPrefixOf_eq_false {pre s : List Char} (differs : pre.isPrefixOf s = false) :
    trimPrefixOf pre s = s := by
  rw [trimPrefixOf, if_neg (by rw [differs]; decide)]

/-- Stripping the schemes in order removes the one a URL starts with, and
nothing else, when no scheme starts what follows it. -/
theorem stripSchemes {scheme : String} (known : scheme ∈ "" :: schemePrefixes) {w : List Char}
    (bare : ∀ s ∈ schemePrefixes, s.data.isPrefixOf w = false) :
    schemePrefixes.foldl (fun u s => trimPrefixOf s.data u) (scheme.data ++ w) = w := by
  have https := trimPrefixOf_of_isPrefixOf_eq_false (bare "https://" (by simp [schemePrefixes]))
  have http := trimPrefixOf_of_isPrefixOf_eq_false (bare "http://" (by simp [schemePrefixes]))
  have tcp := trimPrefixOf_of_isPrefixOf_eq_false (bare "tcp://" (by simp [schemePrefixes]))
  have ssh := trimPrefixOf_of_isPrefixOf_eq_false (bare "ssh://" (by simp [schemePrefixes]))
  have httpNotHttps : "https://".data.isPrefixOf ("http://".data ++ w) = false := rfl
  have tcpNotHttps : "https://".data.isPrefixOf ("tcp://".data ++ w) = false := rfl
  have tcpNotHttp : "http://".data.isPrefixOf ("tcp://".data ++ w) = false := rfl
  have sshNotHttps : "https://".data.isPrefixOf ("ssh://".data ++ w) = false := rfl
  have sshNotHttp : "http://".data.isPrefixOf ("ssh://".data ++ w) = false := rfl
  have sshNotTcp : "tcp://".data.isPrefixOf ("ssh://".data ++ w) = false := rfl
  simp only [schemePrefixes, List.mem_cons, List.not_mem_nil, or_false] at known
  rw [schemePrefixes, List.foldl_cons, List.foldl_cons, List.foldl_cons, List.foldl_cons, List.foldl_nil]
  rcases known with rfl | rfl | rfl | rfl | rfl
  · rw [show "".data ++ w = w from rfl, https, http, tcp, ssh]
  · rw [trimPrefixOf_append, http, tcp, ssh]
  · rw [trimPrefixOf_of_isPrefixOf_eq_false httpNotHttps, trimPrefixOf_append, tcp, ssh]
  · rw [trimPrefixOf_of_isPrefixOf_eq_false tcpNotHttps, trimPrefixOf_of_isPrefixOf_eq_false tcpNotHttp,
      trimPrefixOf_append, ssh]
  · rw [trimPrefixOf_of_isPrefixOf_eq_false sshNotHttps, trimPrefixOf_of_isPrefixOf_eq_false sshNotHttp,
      trimPrefixOf_of_isPrefixOf_eq_false sshNotTcp, trimPrefixOf_append]

/-- Cutting at the first `/` keeps a text with none, followed by nothing or by
a path. -/
theorem cut_at_slash {u path : List Char} (noSlash : '/' ∉ u)
    (pathed : path = [] ∨ path.head? = some '/') :
    (match index ['/'] (u ++ path) with
      | some idx => (u ++ path).take idx
      | none => u ++ path) = u := by
  rcases pathed with rfl | started
  · rw [List.append_nil, Legator.Skills.index_single_eq_none noSlash]
  · obtain ⟨rest, rfl⟩ : ∃ rest, path = '/' :: rest := by
      cases path with
      | nil => cases started
      | cons c rest => exact ⟨rest, by rw [Option.some.inj started]⟩
    rw [Legator.Skills.index_single rest noSlash]
    exact List.take_left _ _

theorem colon_mem_scheme {scheme : String} (known : scheme ∈ schemePrefixes) : ':' ∈ scheme.data := by
  obtain ⟨t, spelled, -, -⟩ := schemePrefixes_split scheme known
  simp [spelled]

/-- `extractHostPort` reads the host and the port that `JoinHostPort` wrote
behind a scheme, or none, whatever path follows. -/
theorem extractHostPort_joinHostPort {scheme path : String} (known : scheme ∈ "" :: schemePrefixes)
    {host port : List Char} (hostPlain : '[' ∉ host ∧ ']' ∉ host ∧ '/' ∉ host)
    (portPlain : port ≠ [] ∧ ':' ∉ port ∧ '[' ∉ port ∧ ']' ∉ port ∧ '/' ∉ port)
    (pathed : path.data = [] ∨ path.data.head? = some '/') :
    extractHostPort (scheme ++ ⟨joinHostPort host port⟩ ++ path) = (⟨host⟩, ⟨port⟩) := by
  obtain ⟨noOpen, noClose, noSlash⟩ := hostPlain
  obtain ⟨named, noColon, noOpen', noClose', noSlash'⟩ := portPlain
  have bare : ∀ s ∈ schemePrefixes, s.data.isPrefixOf (joinHostPort host port ++ path.data) = false := by
    unfold joinHostPort
    split_ifs with ipv6
    · simp only [schemePrefixes, List.mem_cons, List.not_mem_nil, or_false]
      rintro s (rfl | rfl | rfl | rfl) <;> rfl
    · rw [List.append_assoc, List.cons_append]
      refine schemePrefixes_not_prefix ipv6 noSlash (.inl ⟨rfl, ?_⟩)
      obtain ⟨c, rest, rfl⟩ := List.exists_cons_of_ne_nil named
      simpa using fun same : c = '/' => noSlash' (same ▸ List.mem_cons_self _ _)
  unfold extractHostPort
  rw [show (scheme ++ ⟨joinHostPort host port⟩ ++ path).data =
      scheme.data ++ (joinHostPort host port ++ path.data) by simp, stripSchemes known bare]
  dsimp only
  rw [cut_at_slash (joinHostPort_not_mem noSlash noSlash' (by decide) (by decide) (by decide)) pathed,
    splitHostPort_joinHostPort ⟨noOpen, noClose⟩ ⟨noColon, noOpen', noClose'⟩]

/-- `extractHostPort` gives a host with no port the default port of its
scheme, whatever path follows. -/
theorem extractHostPort_default {scheme port path : String}
    (known : (scheme, port) ∈ [("https://", "443"), ("http://", "80"), ("tcp://", "443"),
      ("ssh://", "22"), ("", "443")])
    {host : List Char} (hostPlain : ':' ∉ host ∧ '/' ∉ host)
    (pathed : path.data = [] ∨ path.data.head? = some '/') :
    extractHostPort (scheme ++ ⟨host⟩ ++ path) = (⟨host⟩, port) := by
  obtain ⟨noColon, noSlash⟩ := hostPlain
  have bare : ∀ s ∈ schemePrefixes, s.data.isPrefixOf (host ++ path.data) = false := by
    rcases pathed with empty | started
    · intro s mem
      rw [empty, List.append_nil, Bool.eq_false_iff]
      exact fun starts => noColon ((List.isPrefixOf_iff_prefix.mp starts).subset (colon_mem_scheme mem))
    · obtain ⟨rest, spelled⟩ : ∃ rest, path.data = '/' :: rest := by
        cases data : path.data with
        | nil => rw [data] at started; cases started
        | cons c rest => rw [data] at started; exact ⟨rest, by rw [Option.some.inj started]⟩
      rw [spelled]
      exact schemePrefixes_not_prefix noColon noSlash (.inr rfl)
  simp only [List.mem_cons, Prod.mk.injEq, List.not_mem_nil, or_false] at known
  have schemeKnown : scheme ∈ "" :: schemePrefixes := by
    rcases known with ⟨rfl, -⟩ | ⟨rfl, -⟩ | ⟨rfl, -⟩ | ⟨rfl, -⟩ | ⟨rfl, -⟩ <;> simp [schemePrefixes]
  have data : (scheme ++ ⟨host⟩ ++ path).data = scheme.data ++ (host ++ path.data) := by simp
  have defaulted : defaultPort (scheme ++ ⟨host⟩ ++ path) = port := by
    have starts : scheme.data.isPrefixOf (scheme.data ++ (host ++ path.data)) = true :=
      List.isPrefixOf_iff_prefix.mpr (List.prefix_append _ _)
    have skip : ∀ {b : Bool} {t e : String}, b = false → (if b then t else e) = e := by
      rintro _ _ _ rfl
      rfl
    unfold defaultPort
    rw [data]
    rcases known with ⟨rfl, rfl⟩ | ⟨rfl, rfl⟩ | ⟨rfl, rfl⟩ | ⟨rfl, rfl⟩ | ⟨rfl, rfl⟩
    · rw [if_pos starts]
    · have https : "https://".data.isPrefixOf ("http://".data ++ (host ++ path.data)) = false := rfl
      rw [skip https, if_pos starts]
    · have https : "https://".data.isPrefixOf ("tcp://".data ++ (host ++ path.data)) = false := rfl
      have http : "http://".data.isPrefixOf ("tcp://".data ++ (host ++ path.data)) = false := rfl
      have ssh : "ssh://".data.isPrefixOf ("tcp://".data ++ (host ++ path.data)) = false := rfl
      rw [skip https, skip http, skip ssh]
    · have https : "https://".data.isPrefixOf ("ssh://".data ++ (host ++ path.data)) = false := rfl
      have http : "http://".data.isPrefixOf ("ssh://".data ++ (host ++ path.data)) = false := rfl
      rw [skip https, skip http, if_pos starts]
    · rw [show "".data ++ (host ++ path.data) = host ++ path.data from rfl,
        skip (bare "https://" (by simp [schemePrefixes])), skip (bare "http://" (by simp [schemePrefixes])),
        skip (bare "ssh://" (by simp [schemePrefixes]))]
  unfold extractHostPort
  rw [data, stripSchemes schemeKnown bare]
  dsimp only
  rw [cut_at_slash noSlash pathed, splitHostPort_of_not_mem noColon]
  exact congrArg _ defaulted

/-- The dial at the end of `checkEndpoint`. -/
def dialStatus (net : Network) (addr : String) : EndpointStatus :=
  match net.dial "tcp" addr with
  | .error err => ⟨false, net.elapsed, "TCP dial failed: " ++ err⟩
  | .ok () => ⟨true, net.elapsed, ""⟩

/-- `checkEndpoint`. -/
def checkEndpoint (net : Network) (ep : EndpointSpec) : EndpointStatus :=
  let (host, port) := extractHostPort ep.url
  if host = "" then ⟨false, 0, "could not parse host from URL: " ++ ep.url⟩
  else dialStatus net ⟨joinHostPort host.data port.data⟩

/-- `CheckEndpoints`: every endpoint under its name. -/
def checkEndpoints (net : Network) (endpoints : List (String × EndpointSpec)) :
    List (String × EndpointStatus) :=
  endpoints.map fun (name, ep) => (name, checkEndpoint net ep)

/-- The endpoint check dials exactly the address a URL spells: `host:port`, or
`[host]:port` for an IPv6 host, behind any of the four schemes or none, with any
path after it. -/
theorem checkEndpoint_written_port {scheme path : String} (known : scheme ∈ "" :: schemePrefixes)
    {host port : List Char} (named : host ≠ []) (hostPlain : '[' ∉ host ∧ ']' ∉ host ∧ '/' ∉ host)
    (portPlain : port ≠ [] ∧ ':' ∉ port ∧ '[' ∉ port ∧ ']' ∉ port ∧ '/' ∉ port)
    (pathed : path.data = [] ∨ path.data.head? = some '/') (net : Network) :
    checkEndpoint net ⟨scheme ++ ⟨joinHostPort host port⟩ ++ path⟩ =
      dialStatus net ⟨joinHostPort host port⟩ := by
  unfold checkEndpoint
  rw [extractHostPort_joinHostPort known hostPlain portPlain pathed]
  exact if_neg fun empty => named (congrArg String.data empty)

/-- A URL that gives no port is dialled at its scheme's default port. -/
theorem checkEndpoint_default_port {scheme port path : String}
    (known : (scheme, port) ∈ [("https://", "443"), ("http://", "80"), ("tcp://", "443"),
      ("ssh://", "22"), ("", "443")])
    {host : List Char} (named : host ≠ []) (hostPlain : ':' ∉ host ∧ '/' ∉ host)
    (pathed : path.data = [] ∨ path.data.head? = some '/') (net : Network) :
    checkEndpoint net ⟨scheme ++ ⟨host⟩ ++ path⟩ = dialStatus net ⟨host ++ ':' :: port.data⟩ := by
  unfold checkEndpoint
  rw [extractHostPort_default known hostPlain pathed]
  refine (if_neg fun empty => named (congrArg String.data empty)).trans ?_
  unfold joinHostPort
  rw [if_neg hostPlain.1]

/-- A network where nothing answers. -/
def refusingNetwork : Network :=
  ⟨fun _ _ => .error "connection refused", 0⟩

/-- An IPv6 endpoint is dialled at its bracketed address. -/
theorem ipv6_endpoint_dialled_bracketed :
    "https://" ∈ "" :: schemePrefixes ∧ "fd00::10".data ≠ [] ∧
      ('[' ∉ "fd00::10".data ∧ ']' ∉ "fd00::10".data ∧ '/' ∉ "fd00::10".data) ∧
      ("8443".data ≠ [] ∧ ':' ∉ "8443".data ∧ '[' ∉ "8443".data ∧ ']' ∉ "8443".data ∧
        '/' ∉ "8443".data) ∧
      ("/healthz".data = [] ∨ "/healthz".data.head? = some '/') ∧
      checkEndpoint refusingNetwork ⟨"https://" ++ ⟨joinHostPort "fd00::10".data "8443".data⟩ ++ "/healthz"⟩ =
        dialStatus refusingNetwork ⟨joinHostPort "fd00::10".data "8443".data⟩ :=
  ⟨by decide, by decide, ⟨by decide, by decide, by decide⟩,
    ⟨by decide, by decide, by decide, by decide, by decide⟩, by decide,
    checkEndpoint_written_port (by decide) (by decide) ⟨by decide, by decide, by decide⟩
      ⟨by decide, by decide, by decide, by decide, by decide⟩ (by decide) refusingNetwork⟩

/-- `http://internal-service` is dialled at port 80. -/
theorem internal_service_dialled_at_80 :
    ("http://", "80") ∈ [("https://", "443"), ("http://", "80"), ("tcp://", "443"),
      ("ssh://", "22"), ("", "443")] ∧ "internal-service".data ≠ [] ∧
      (':' ∉ "internal-service".data ∧ '/' ∉ "internal-service".data) ∧
      ("".data = [] ∨ "".data.head? = some '/') ∧
      checkEndpoint refusingNetwork ⟨"http://" ++ ⟨"internal-service".data⟩ ++ ""⟩ =
        dialStatus refusingNetwork ⟨"internal-service".data ++ ':' :: "80".data⟩ :=
  ⟨by decide, by decide, ⟨by decide, by decide⟩, by decide,
    checkEndpoint_default_port (by decide) (by decide) ⟨by decide, by decide⟩ (by decide)
      refusingNetwork⟩

end Legator.Connectivity

import Legator.Skills.OciRef

/-!
# Hosts and ports

`net.SplitHostPort` and `net.JoinHostPort` of the Go standard library, which
the connectivity manager uses to read an endpoint URL and to dial it. They are
not part of this repository; this module follows the library's source. Its byte
searches (`IndexByteString`, `LastIndexByteString`) are the string searches of
`Legator.Skills` on a one-character pattern, and as there the model works on
characters: every separator here is ASCII.

`SplitHostPort` reads back what `JoinHostPort` writes, whenever the host has no
brackets and the port no colon and no brackets (`splitHostPort_joinHostPort`).
-/

namespace Legator.Net

open Legator.Skills (index lastIndex)

/-- The text of the `AddrError` that `SplitHostPort` returns. -/
def addrErr (addr : List Char) (why : String) : String :=
  "address " ++ String.mk addr ++ ": " ++ why

/-- The host of `SplitHostPort`, given the position `i` of the last `:`: inside
brackets that close just before it, or everything before it; with the positions
`j` and `k` from which no `[` and no `]` may follow. -/
def splitHost (hostport : List Char) (i : Nat) : Except String (List Char × Nat × Nat) :=
  if hostport.head? = some '[' then
    match index [']'] hostport with
    | none => .error (addrErr hostport "missing \x27]\x27 in address")
    | some close =>
        if close + 1 = hostport.length then .error (addrErr hostport "missing port in address")
        else if close + 1 = i then .ok ((hostport.take close).drop 1, 1, close + 1)
        else if hostport.get? (close + 1) = some ':' then
          .error (addrErr hostport "too many colons in address")
        else .error (addrErr hostport "missing port in address")
  else if ':' ∈ hostport.take i then .error (addrErr hostport "too many colons in address")
  else .ok (hostport.take i, 0, 0)

/-- `net.SplitHostPort`. -/
def splitHostPort (hostport : List Char) : Except String (List Char × List Char) :=
  match lastIndex ':' hostport with
  | none => .error (addrErr hostport "missing port in address")
  | some i =>
      match splitHost hostport i with
      | .error err => .error err
      | .ok (host, j, k) =>
          if '[' ∈ hostport.drop j then .error (addrErr hostport "unexpected \x27[\x27 in address")
          else if ']' ∈ hostport.drop k then
            .error (addrErr hostport "unexpected \x27]\x27 in address")
          else .ok (host, hostport.drop (i + 1))

/-- `net.JoinHostPort`: a host with a colon is taken for an IPv6 literal and
bracketed. -/
def joinHostPort (host port : List Char) : List Char :=
  if ':' ∈ host then '[' :: host ++ ']' :: ':' :: port else host ++ ':' :: port

/-- An address with no colon has no port. -/
theorem splitHostPort_of_not_mem {hostport : List Char} (noColon : ':' ∉ hostport) :
    splitHostPort hostport = .error (addrErr hostport "missing port in address") := by
  unfold splitHostPort
  rw [Legator.Skills.lastIndex_eq_none_iff.mpr noColon]

theorem joinHostPort_not_mem {c : Char} {host port : List Char} (inHost : c ∉ host)
    (inPort : c ∉ port) (separator : c ≠ ':') (opening : c ≠ '[') (closing : c ≠ ']') :
    c ∉ joinHostPort host port := by
  unfold joinHostPort
  split_ifs <;> simp [inHost, inPort, separator, opening, closing]

theorem splitHost_bracketed {host : List Char} (port : List Char) (noClose : ']' ∉ host) :
    splitHost ('[' :: host ++ ']' :: ':' :: port) (host.length + 2) = .ok (host, 1, host.length + 2) := by
  have close : index [']'] ('[' :: host ++ ']' :: ':' :: port) = some (host.length + 1) := by
    simpa using @Legator.Skills.index_single ']' (':' :: port) ('[' :: host) (by simp [noClose])
  unfold splitHost
  rw [if_pos (by simp), close]
  dsimp only
  rw [if_neg (by simp only [List.length_cons, List.length_append]; omega), if_pos rfl,
    List.take_left' (by simp)]
  rfl

theorem splitHost_plain {host : List Char} (port : List Char) (noColon : ':' ∉ host)
    (noOpen : '[' ∉ host) : splitHost (host ++ ':' :: port) host.length = .ok (host, 0, 0) := by
  have unopened : (host ++ ':' :: port).head? ≠ some '[' := by
    cases host with
    | nil => simp
    | cons c host => simpa using fun same : c = '[' => noOpen (same ▸ List.mem_cons_self _ _)
  unfold splitHost
  rw [if_neg unopened, List.take_left, if_neg noColon]

/-- `SplitHostPort` reads back the host and the port `JoinHostPort` joined,
bracketed or not. -/
theorem splitHostPort_joinHostPort {host port : List Char} (hostPlain : '[' ∉ host ∧ ']' ∉ host)
    (portPlain : ':' ∉ port ∧ '[' ∉ port ∧ ']' ∉ port) :
    splitHostPort (joinHostPort host port) = .ok (host, port) := by
  obtain ⟨noOpen, noClose⟩ := hostPlain
  obtain ⟨noColon, noOpen', noClose'⟩ := portPlain
  unfold joinHostPort splitHostPort
  split_ifs with ipv6
  · have last : lastIndex ':' ('[' :: host ++ ']' :: ':' :: port) = some (host.length + 2) := by
      simpa using Legator.Skills.lastIndex_append noColon ('[' :: host ++ [']'])
    rw [last]
    dsimp only
    rw [splitHost_bracketed port noClose]
    dsimp only
    rw [if_neg (by simp [noOpen, noOpen']), if_neg (by simp [List.drop_append, noClose']),
      show host.length + 2 + 1 = ('[' :: host).length + 2 by simp, List.drop_append]
    rfl
  · rw [Legator.Skills.lastIndex_append noColon host]
    dsimp only
    rw [splitHost_plain port ipv6 noOpen]
    dsimp only
    rw [if_neg (by simp [noOpen, noOpen']), if_neg (by simp [noClose, noClose']), List.drop_append]
    rfl

end Legator.Net

import Mathlib.Data.List.Basic
import Legator.System

/-!
# The remote client cache

`ClientFactory.ClientForEnvironment` of the multicluster package reads the
kubeconfig Secret an environment names, looks the client up in a cache keyed by
`(namespace, secret, key, resourceVersion)`, and on a miss builds a client from
the Secret's data and caches it. `InvalidateSecret` drops the entries of one
Secret and `InvalidateCache` all of them.

A call takes the cache's lock twice: once to look up and once to insert, with
the build in between. The model splits a call at that point: `start` reads the
Secret and looks up the cache, and `finish` builds and inserts, so that calls,
Secret updates and invalidations interleave between the two. The Secret store
gives every update a fresh resource version, and keeps, for the proofs only,
the data of every version it has held. Building a client (parsing the
kubeconfig, `client.New`) is an input that may fail; a built client records the
kubeconfig it was built from.
-/

namespace Legator.Multicluster

/-! ## Environments and Secrets -/

/-- `KubeconfigRef`. -/
structure KubeconfigRef where
  secretRef : String
  key : String

/-- `ConnectionSpec`. -/
structure ConnectionSpec where
  kind : String
  kubeconfig : Option KubeconfigRef

/-- The parts of an `AgentEnvironment` the factory reads. -/
structure AgentEnvironment where
  «namespace» : String
  connection : Option ConnectionSpec

/-- A `Secret`: its resource version and its data. -/
structure Secret where
  resourceVersion : Nat
  data : List (String × List UInt8)

/-- A client built by `client.New`: the kubeconfig it was built from, and a
serial number that tells apart clients built from the same data. -/
structure RemoteClient where
  kubeconfig : List UInt8
  serial : Nat
  deriving DecidableEq

/-- `cacheKey`. -/
structure CacheKey where
  «namespace» : String
  secretName : String
  secretKey : String
  resourceVersion : Nat
  deriving DecidableEq

/-- `%q`, without its escapes. -/
def quoted (s : String) : String :=
  "\"" ++ s ++ "\""

/-! ## `ClientForEnvironment` -/

/-- The checks of `ClientForEnvironment` before it reads the Secret: `none` for
the default client, or the Secret's name and the key with its default. -/
def connectionSecret (env : AgentEnvironment) : Except String (Option (String × String)) :=
  match env.connection with
  | none => .ok none
  | some conn =>
      if conn.kind = "in-cluster" then .ok none
      else if conn.kind ≠ "kubeconfig" then .error ("unsupported connection kind: " ++ quoted conn.kind)
      else match conn.kubeconfig with
        | none => .error "connection kind is 'kubeconfig' but kubeconfig.secretRef is empty"
        | some ref =>
            if ref.secretRef = "" then
              .error "connection kind is 'kubeconfig' but kubeconfig.secretRef is empty"
            else .ok (some (ref.secretRef, if ref.key = "" then "kubeconfig" else ref.key))

/-- `ClientFactory`: the cache, as a map from keys to clients. -/
structure ClientFactory where
  cache : CacheKey → Option RemoteClient

/-- How a call stands after its cache lookup: answered, answered from the cache
under a key, or on its way to build from the data it read under the key it
missed. -/
inductive Lookup
  | done (result : Except String (Option RemoteClient))
  | hit (key : CacheKey) (cached : RemoteClient)
  | miss (key : CacheKey) (data : Option (List UInt8))

namespace ClientFactory

/-- `NewClientFactory`. -/
def newClientFactory : ClientFactory :=
  ⟨fun _ => none⟩

/-- The first half of `ClientForEnvironment`: the checks, the Secret read, and
the cache lookup. -/
def start (f : ClientFactory) (secrets : String → String → Option Secret)
    (env : AgentEnvironment) : Lookup :=
  match connectionSecret env with
  | .error err => .done (.error err)
  | .ok none => .done (.ok none)
  | .ok (some (secretRef, key)) =>
      match secrets env.«namespace» secretRef with
      | none => .done (.error ("get kubeconfig secret " ++ env.«namespace» ++ "/" ++ secretRef ++
          ": secrets " ++ quoted secretRef ++ " not found"))
      | some secret =>
          let ck : CacheKey := ⟨env.«namespace», secretRef, key, secret.resourceVersion⟩
          match f.cache ck with
          | some cached => .hit ck cached
          | none => .miss ck (secret.data.lookup key)

/-- The second half of `ClientForEnvironment` for a call that missed `ck`,
given whether parsing the kubeconfig and `client.New` fail, and the serial of a
new client: the factory after it, and its result. -/
def finish (f : ClientFactory) (ck : CacheKey) (data : Option (List UInt8))
    (parsed created : Option String) (serial : Nat) :
    ClientFactory × Except String (Option RemoteClient) :=
  let secret := ck.«namespace» ++ "/" ++ ck.secretName
  match data with
  | none => (f, .error ("secret " ++ secret ++ " does not contain key " ++ quoted ck.secretKey))
  | some kubeconfig =>
      match parsed, created with
      | some err, _ => (f, .error ("parse kubeconfig from secret " ++ secret ++ " key " ++
          quoted ck.secretKey ++ ": " ++ err))
      | none, some err => (f, .error ("create remote client from secret " ++ secret ++ ": " ++ err))
      | none, none =>
          let remoteClient : RemoteClient := ⟨kubeconfig, serial⟩
          (⟨fun other => if other = ck then some remoteClient else f.cache other⟩, .ok (some remoteClient))

/-- `InvalidateCache`. -/
def invalidateCache (_ : ClientFactory) : ClientFactory :=
  newClientFactory

/-- `InvalidateSecret`. -/
def invalidateSecret (f : ClientFactory) («namespace» name : String) : ClientFactory :=
  ⟨fun key => if key.«namespace» = «namespace» ∧ key.secretName = name then none else f.cache key⟩

/-- A client `finish` caches is built from the data the call read, under the
key it missed, and no other entry changes. -/
theorem finish_cache {f f' : ClientFactory} {ck : CacheKey} {data : Option (List UInt8)}
    {parsed created : Option String} {serial : Nat} {result : Except String (Option RemoteClient)}
    (finished : f.finish ck data parsed created serial = (f', result)) (other : CacheKey) :
    f'.cache other = f.cache other ∨
      (other = ck ∧ ∃ kubeconfig, data = some kubeconfig ∧ f'.cache other = some ⟨kubeconfig, serial⟩ ∧
        result = .ok (some ⟨kubeconfig, serial⟩)) := by
  unfold finish at finished
  split at finished
  · cases finished; exact Or.inl rfl
  · rename_i kubeconfig
    split at finished
    · cases finished; exact Or.inl rfl
    · cases finished; exact Or.inl rfl
    · cases finished
      by_cases same : other = ck
      · exact Or.inr ⟨same, kubeconfig, rfl, by simp [same], rfl⟩
      · exact Or.inl (by simp [same])

/-- What `finish` returns when it does not fail. -/
theorem finish_result {f f' : ClientFactory} {ck : CacheKey} {data : Option (List UInt8)}
    {parsed created : Option String} {serial : Nat} {c : RemoteClient}
    (finished : f.finish ck data parsed created serial = (f', .ok (some c))) :
    data = some c.kubeconfig ∧ f'.cache ck = some c := by
  unfold finish at finished
  split at finished
  · cases finished
  · split at finished
    · cases finished
    · cases finished
    · cases finished
      exact ⟨rfl, by simp⟩

/-- `finish` fails, changing nothing, when the key is missing or the client
cannot be parsed or created; otherwise it caches and returns the client built
from the data. -/
theorem finish_cases (f : ClientFactory) (ck : CacheKey) (data : Option (List UInt8))
    (parsed created : Option String) (serial : Nat) :
    ((f.finish ck data parsed created serial).1 = f ∧
        (∃ err, (f.finish ck data parsed created serial).2 = .error err) ∧
        (data = none ∨ parsed ≠ none ∨ created ≠ none)) ∨
      ∃ kubeconfig, data = some kubeconfig ∧ parsed = none ∧ created = none ∧
        (f.finish ck data parsed created serial).2 = .ok (some ⟨kubeconfig, serial⟩) ∧
        (f.finish ck data parsed created serial).1.cache ck = some ⟨kubeconfig, serial⟩ := by
  unfold finish
  rcases data with _ | kubeconfig
  · exact .inl ⟨rfl, ⟨_, rfl⟩, .inl rfl⟩
  · rcases parsed with _ | err <;> rcases created with _ | err' <;> simp

/-- A cache hit answers with the client cached under the key of the Secret
version the call read. -/
theorem start_hit {f : ClientFactory} {secrets : String → String → Option Secret}
    {env : AgentEnvironment} {ck : CacheKey} {cached : RemoteClient}
    (looked : f.start secrets env = .hit ck cached) :
    f.cache ck = some cached ∧ ∃ secret, secrets ck.«namespace» ck.secretName = some secret ∧
      secret.resourceVersion = ck.resourceVersion := by
  unfold start at looked
  split at looked
  · cases looked
  · cases looked
  · split at looked
    · cases looked
    · rename_i secret secretFound
      dsimp only at looked
      split at looked
      · rename_i found
        cases looked
        exact ⟨found, secret, secretFound, rfl⟩
      · cases looked

/-- A cache miss carries the key of the Secret version the call read, which
has no entry, and the data under the Secret key in that version. -/
theorem start_miss {f : ClientFactory} {secrets : String → String → Option Secret}
    {env : AgentEnvironment} {ck : CacheKey} {data : Option (List UInt8)}
    (looked : f.start secrets env = .miss ck data) :
    f.cache ck = none ∧ ∃ secret, secrets ck.«namespace» ck.secretName = some secret ∧
      secret.resourceVersion = ck.resourceVersion ∧ data = secret.data.lookup ck.secretKey := by
  unfold start at looked
  split at looked
  · cases looked
  · cases looked
  · split at looked
    · cases looked
    · rename_i secret found
      dsimp only at looked
      split at looked
      · cases looked
      · rename_i absent
        cases looked
        exact ⟨absent, secret, found, rfl, rfl⟩

end ClientFactory

/-! ## Calls, Secret writes and invalidations -/

/-- A call between its lookup and its insert: the key it missed and the data it
read under it. -/
structure PendingCall where
  key : CacheKey
  data : Option (List UInt8)

/-- The factory, the Secret store, the calls in flight by number, the serial of
the next client, and, for the proofs only, the data of every Secret version and
every client a call returned with the key it looked up. -/
structure FactoryState where
  factory : ClientFactory
  secrets : String → String → Option Secret
  nextVersion : Nat
  history : String → String → Nat → Option (List (String × List UInt8))
  pending : List (Option PendingCall)
  nextSerial : Nat
  returned : List (CacheKey × RemoteClient)

/-- A Secret write, the two halves of a call, and the invalidations. -/
inductive FactoryEvent
  | writeSecret («namespace» name : String) (data : List (String × List UInt8))
  | start (env : AgentEnvironment)
  | finish (id : Nat) (parsed created : Option String)
  | invalidateSecret («namespace» name : String)
  | invalidateCache

/-- The client a finished call returned, with the key it looked up. -/
def returnedClient (key : CacheKey) : Except String (Option RemoteClient) → List (CacheKey × RemoteClient)
  | .ok (some c) => [(key, c)]
  | _ => []

namespace FactoryState

/-- One step. -/
def step (s : FactoryState) : FactoryEvent → Option FactoryState
  | .writeSecret «namespace» name data =>
      some { s with
        secrets := fun ns other =>
          if ns = «namespace» ∧ other = name then some ⟨s.nextVersion, data⟩ else s.secrets ns other
        history := fun ns other version =>
          if ns = «namespace» ∧ other = name ∧ version = s.nextVersion then some data
          else s.history ns other version
        nextVersion := s.nextVersion + 1 }
  | .start env =>
      some (match s.factory.start s.secrets env with
        | .done _ => s
        | .hit ck cached => { s with returned := s.returned ++ [(ck, cached)] }
        | .miss ck data => { s with pending := s.pending ++ [some ⟨ck, data⟩] })
  | .finish id parsed created =>
      match s.pending[id]? with
      | some (some call) =>
          let finished := s.factory.finish call.key call.data parsed created s.nextSerial
          some { s with
            factory := finished.1
            pending := s.pending.set id none
            nextSerial := s.nextSerial + 1
            returned := s.returned ++ returnedClient call.key finished.2 }
      | _ => none
  | .invalidateSecret «namespace» name => some { s with factory := s.factory.invalidateSecret «namespace» name }
  | .invalidateCache => some { s with factory := s.factory.invalidateCache }

/-- A new factory over any Secret store whose versions lie below `nextVersion`. -/
def system : System FactoryState FactoryEvent :=
  ⟨fun s => s.factory = ClientFactory.newClientFactory ∧ s.pending = [] ∧ s.returned = [] ∧
      s.history = (fun ns name version => (s.secrets ns name).bind fun secret =>
        if secret.resourceVersion = version then some secret.data else none) ∧
      ∀ ns name secret, s.secrets ns name = some secret → secret.resourceVersion < s.nextVersion,
    step⟩

/-- The data under a key's Secret key at the key's resource version, if the
store ever held that version. -/
def versionData (s : FactoryState) (ck : CacheKey) : Option (Option (List UInt8)) :=
  (s.history ck.«namespace» ck.secretName ck.resourceVersion).map (·.lookup ck.secretKey)

/-- Every cached or returned client, and every call in flight, carries the data
of the Secret version its key names. -/
structure Consistent (s : FactoryState) : Prop where
  versionsBelow : ∀ ns name version data, s.history ns name version = some data →
    version < s.nextVersion
  secretsRecorded : ∀ ns name secret, s.secrets ns name = some secret →
    s.history ns name secret.resourceVersion = some secret.data
  cacheBuilt : ∀ ck c, s.factory.cache ck = some c → s.versionData ck = some (some c.kubeconfig)
  pendingRead : ∀ (id : Nat) (call : PendingCall), s.pending[id]? = some (some call) →
    s.versionData call.key = some call.data
  returnedBuilt : ∀ entry ∈ s.returned, s.versionData entry.1 = some (some entry.2.kubeconfig)

/-- Every version the store held in `s` it still holds in `s'`. -/
def HistoryGrows (s s' : FactoryState) : Prop :=
  ∀ ns name version data, s.history ns name version = some data →
    s'.history ns name version = some data

theorem versionData_of_grows {s s' : FactoryState} (grows : HistoryGrows s s') {ck : CacheKey}
    {data : Option (List UInt8)} (read : s.versionData ck = some data) :
    s'.versionData ck = some data := by
  unfold versionData at read ⊢
  obtain ⟨secretData, found, rfl⟩ := Option.map_eq_some'.mp read
  rw [grows _ _ _ _ found]
  rfl

/-- What is built on Secret versions carries over to a state whose history
has grown, whose cache entries and calls in flight were there before, and whose
returned clients are the old ones. -/
theorem Consistent.keep {s s' : FactoryState} (consistent : Consistent s)
    (grows : HistoryGrows s s') (below : ∀ ns name version data,
      s'.history ns name version = some data → version < s'.nextVersion)
    (recorded : ∀ ns name secret, s'.secrets ns name = some secret →
      s'.history ns name secret.resourceVersion = some secret.data)
    (cached : ∀ ck c, s'.factory.cache ck = some c → s.factory.cache ck = some c)
    (pending : s'.pending = s.pending) (returned : s'.returned = s.returned) : Consistent s' where
  versionsBelow := below
  secretsRecorded := recorded
  cacheBuilt ck c found := versionData_of_grows grows (consistent.cacheBuilt ck c (cached ck c found))
  pendingRead id call found :=
    versionData_of_grows grows (consistent.pendingRead id call (pending ▸ found))
  returnedBuilt entry mem := versionData_of_grows grows (consistent.returnedBuilt entry (returned ▸ mem))

theorem Consistent.writeSecret {s : FactoryState} (consistent : Consistent s)
    («namespace» name : String) (data : List (String × List UInt8)) :
    Consistent ((s.step (.writeSecret «namespace» name data)).getD s) := by
  have grows : HistoryGrows s ((s.step (.writeSecret «namespace» name data)).getD s) :=
    fun ns other version old found => by
      have older := consistent.versionsBelow ns other version old found
      simp only [step, Option.getD_some]
      rw [if_neg (by omega), found]
  refine consistent.keep grows (fun ns other version secretData found => ?_)
    (fun ns other secret found => ?_) (fun _ _ found => found) rfl rfl
  · simp only [step, Option.getD_some] at found ⊢
    split_ifs at found with same
    · omega
    · have := consistent.versionsBelow ns other version secretData found
      omega
  · simp only [step, Option.getD_some] at found ⊢
    split_ifs at found with same
    · cases found
      simp [same]
    · exact grows _ _ _ _ (consistent.secretsRecorded ns other secret found)

theorem Consistent.start {s : FactoryState} (consistent : Consistent s) (env : AgentEnvironment) :
    Consistent ((s.step (.start env)).getD s) := by
  simp only [step, Option.getD_some]
  split
  · exact consistent
  · rename_i ck cached looked
    refine { consistent with returnedBuilt := fun entry mem => ?_ }
    rcases List.mem_append.mp mem with old | new
    · exact consistent.returnedBuilt entry old
    · rw [List.mem_singleton.mp new]
      exact consistent.cacheBuilt ck cached (ClientFactory.start_hit looked).1
  · rename_i ck data looked
    refine { consistent with pendingRead := fun id call found => ?_ }
    obtain ⟨-, secret, secretFound, version, rfl⟩ := ClientFactory.start_miss looked
    by_cases old : id < s.pending.length
    · rw [List.getElem?_append_left old] at found
      exact consistent.pendingRead id call found
    · rw [List.getElem?_append_right (Nat.le_of_not_lt old)] at found
      cases List.mem_singleton.mp (List.getElem?_mem found)
      simp only [versionData, ← version, consistent.secretsRecorded _ _ secret secretFound]
      rfl

theorem Consistent.finish {s s' : FactoryState} (consistent : Consistent s) {id : Nat}
    {parsed : Option String} {created : Option String}
    (stepped : s.step (.finish id parsed created) = some s') : Consistent s' := by
  simp only [FactoryState.step] at stepped
  split at stepped
  · rename_i call found
    cases stepped
    have read := consistent.pendingRead id call found
    generalize finishedEq :
      s.factory.finish call.key call.data parsed created s.nextSerial = finished
    obtain ⟨factory, result⟩ := finished
    refine ⟨consistent.versionsBelow, consistent.secretsRecorded, fun ck c cached => ?_,
      fun other otherCall otherFound => ?_, fun entry mem => ?_⟩
    · rcases ClientFactory.finish_cache finishedEq ck with same | ⟨rfl, kubeconfig, dataEq, built, -⟩
      · exact consistent.cacheBuilt ck c (same ▸ cached)
      · rw [built] at cached
        cases cached
        rw [← dataEq]
        exact read
    · by_cases here : id = other
      · subst here
        rw [List.getElem?_set_self (List.getElem?_eq_some_iff.mp found).fst] at otherFound
        cases otherFound
      · rw [List.getElem?_set_ne here] at otherFound
        exact consistent.pendingRead other otherCall otherFound
    · rcases List.mem_append.mp mem with old | new
      · exact consistent.returnedBuilt entry old
      · unfold returnedClient at new
        split at new
        · rename_i c resultEq
          rw [List.mem_singleton.mp new]
          obtain ⟨dataEq, -⟩ := ClientFactory.finish_result (finishedEq.trans (by rw [← resultEq]))
          rw [← dataEq]
          exact read
        · cases new
  · cases stepped

theorem Consistent.step {s s' : FactoryState} {event : FactoryEvent} (consistent : Consistent s)
    (stepped : s.step event = some s') : Consistent s' := by
  cases event with
  | writeSecret «namespace» name data =>
      have written := consistent.writeSecret «namespace» name data
      rwa [stepped, Option.getD_some] at written
  | start env =>
      have started := consistent.start env
      rwa [stepped, Option.getD_some] at started
  | finish id parsed created => exact consistent.finish stepped
  | invalidateSecret «namespace» name =>
      cases stepped
      refine consistent.keep (fun _ _ _ _ found => found) consistent.versionsBelow
        consistent.secretsRecorded (fun ck c found => ?_) rfl rfl
      simp only [ClientFactory.invalidateSecret] at found
      split_ifs at found
      exact found
  | invalidateCache =>
      cases stepped
      exact consistent.keep (fun _ _ _ _ found => found) consistent.versionsBelow
        consistent.secretsRecorded (fun _ _ found => by cases found) rfl rfl

theorem consistent_of_reachable {s : FactoryState} (reachable : system.Reachable s) :
    Consistent s := by
  induction reachable with
  | init initial =>
      obtain ⟨fresh, noPending, noneReturned, history, below⟩ := initial
      refine ⟨fun ns name version data found => ?_, fun ns name secret found => ?_,
        fun ck c cached => ?_, fun id call found => ?_, fun entry mem => ?_⟩
      · rw [history] at found
        obtain ⟨secret, secretFound, versionFound⟩ := Option.bind_eq_some.mp found
        split_ifs at versionFound with same
        exact same ▸ below ns name secret secretFound
      · rw [history]
        simp [found]
      · rw [fresh] at cached
        cases cached
      · rw [noPending] at found
        cases found
      · rw [noneReturned] at mem
        cases mem
  | step event _ stepped consistent => exact consistent.step stepped

/-- A cache entry leaves only by an invalidation that covers it. -/
theorem cache_entry_kept {s s' : FactoryState} {event : FactoryEvent} {ck : CacheKey}
    (stepped : s.step event = some s') (present : (s.factory.cache ck).isSome)
    (gone : s'.factory.cache ck = none) :
    event = .invalidateCache ∨ event = .invalidateSecret ck.«namespace» ck.secretName := by
  cases event with
  | writeSecret => cases stepped; rw [gone] at present; cases present
  | start env =>
      cases stepped
      split at gone <;> rw [gone] at present <;> cases present
  | finish id parsed created =>
      simp only [step] at stepped
      split at stepped
      · rename_i call found
        cases stepped
        generalize finishedEq :
          s.factory.finish call.key call.data parsed created s.nextSerial = finished at gone
        obtain ⟨factory, result⟩ := finished
        simp only at gone
        rcases ClientFactory.finish_cache finishedEq ck with same | ⟨-, kubeconfig, -, built, -⟩
        · rw [← same, gone] at present
          cases present
        · rw [built] at gone
          cases gone
      · cases stepped
  | invalidateSecret «namespace» name =>
      cases stepped
      simp only [ClientFactory.invalidateSecret] at gone
      split_ifs at gone with covered
      · exact Or.inr (by rw [covered.1, covered.2])
      · rw [gone] at present
        cases present
  | invalidateCache => exact Or.inl rfl

/-- The first half of a call reads the Secret's current version and either
answers from the entry of that version, or, when there is none, goes on with
that version's key and data. -/
theorem start_observes_version {s s' : FactoryState} {env : AgentEnvironment}
    (stepped : s.step (.start env) = some s') :
    (s'.returned = s.returned ∧ s'.pending = s.pending) ∨
      (∃ ck c secret, s.secrets ck.«namespace» ck.secretName = some secret ∧
        secret.resourceVersion = ck.resourceVersion ∧ s.factory.cache ck = some c ∧
        s'.returned = s.returned ++ [(ck, c)] ∧ s'.pending = s.pending) ∨
      (∃ ck secret, s.secrets ck.«namespace» ck.secretName = some secret ∧
        secret.resourceVersion = ck.resourceVersion ∧ s.factory.cache ck = none ∧
        s'.returned = s.returned ∧
        s'.pending = s.pending ++ [some ⟨ck, secret.data.lookup ck.secretKey⟩]) := by
  simp only [step, Option.some.injEq] at stepped
  subst stepped
  split
  · exact .inl ⟨rfl, rfl⟩
  · rename_i ck cached looked
    obtain ⟨found, secret, secretFound, version⟩ := ClientFactory.start_hit looked
    exact .inr (.inl ⟨ck, cached, secret, secretFound, version, found, rfl, rfl⟩)
  · rename_i ck data looked
    obtain ⟨absent, secret, secretFound, version, rfl⟩ := ClientFactory.start_miss looked
    exact .inr (.inr ⟨ck, secret, secretFound, version, absent, rfl, rfl⟩)

/-- The second half of a call leaves every entry of another key as it was. It
fails and changes nothing when the key is missing or the client cannot be
parsed or created; otherwise it caches the client built from the data its first
half read under the key that half missed, and returns it. -/
theorem finish_adds_entry {s s' : FactoryState} {id : Nat} {parsed created : Option String}
    {call : PendingCall} (found : s.pending[id]? = some (some call))
    (stepped : s.step (.finish id parsed created) = some s') :
    (∀ other, other ≠ call.key → s'.factory.cache other = s.factory.cache other) ∧
      ((s'.returned = s.returned ∧ s'.factory = s.factory ∧
          (call.data = none ∨ parsed ≠ none ∨ created ≠ none)) ∨
        ∃ c, parsed = none ∧ created = none ∧ call.data = some c.kubeconfig ∧
          s'.returned = s.returned ++ [(call.key, c)] ∧ s'.factory.cache call.key = some c) := by
  simp only [step, found, Option.some.injEq] at stepped
  subst stepped
  refine ⟨fun other apart => ?_, ?_⟩
  · rcases ClientFactory.finish_cache rfl other with same | ⟨same, -⟩
    · exact same
    · exact absurd same apart
  · rcases ClientFactory.finish_cases s.factory call.key call.data parsed created s.nextSerial with
      ⟨same, ⟨err, failed⟩, refused⟩ | ⟨kubeconfig, dataEq, rfl, rfl, succeeded, cached⟩
    · exact .inl ⟨by simp only [failed, returnedClient, List.append_nil], same, refused⟩
    · exact .inr ⟨⟨kubeconfig, s.nextSerial⟩, rfl, rfl, dataEq,
        by simp only [succeeded, returnedClient], cached⟩

/-- An environment reading key `kubeconfig` of Secret `infra/remote-kc`. -/
def remoteEnvironment : AgentEnvironment :=
  ⟨"infra", some ⟨"kubeconfig", some ⟨"remote-kc", ""⟩⟩⟩

/-- An empty Secret store and cache. -/
def emptyFactory : FactoryState :=
  ⟨ClientFactory.newClientFactory, fun _ _ => none, 0, fun _ _ _ => none, [], 0, []⟩

/-- The Secret is written, a call builds a client, the Secret is rewritten, and
a second call builds another. -/
def rotation : List FactoryEvent :=
  [.writeSecret "infra" "remote-kc" [("kubeconfig", [1])], .start remoteEnvironment,
    .finish 0 none none, .writeSecret "infra" "remote-kc" [("kubeconfig", [2])],
    .start remoteEnvironment, .finish 1 none none]

end FactoryState

end Legator.Multicluster

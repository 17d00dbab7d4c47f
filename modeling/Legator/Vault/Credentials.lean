import Legator.System

/-!
# Per-run credentials

`CredentialManager` of the vault package tracks, for one agent run, the lease of
every database credential and the private key of every SSH certificate it
obtained, and `Cleanup` revokes those leases and overwrites those keys with
zeroes. Every method holds the manager's mutex for its whole body, so each call
is one atomic step.

Vault's answers are inputs: a request may fail, a database credential may come
without a lease, and each `RevokeLease` of a `Cleanup` may fail. A private key
is a slice in memory, modelled by a handle into `memory`; the PEM text handed to
the caller is a copy of the key's bytes, and its armor is left out.
-/

namespace Legator.Vault

/-! ## The manager -/

/-- `DatabaseCredentials` as `GetDatabaseCredentials` returns them. -/
structure DatabaseCredentials where
  username : String
  password : String
  leaseID : String

/-- `DBCredentials`, handed to the caller. -/
structure DBCredentials where
  username : String
  password : String
  leaseID : String

/-- `SSHCARequest`. -/
structure SSHCARequest where
  mount : String
  role : String
  user : String
  ttl : String

/-- `SSHCredentials`, handed to the caller: a copy of the private key's bytes,
the signed certificate, and the user. -/
structure SSHCredentials where
  privateKey : List UInt8
  certificate : String
  user : String

/-- `CredentialManager`: the tracked leases and the handles of the tracked
private keys. -/
structure CredentialManager where
  leases : List String
  sshKeys : List Nat

/-- The lease a successful database request hands over, if it is not empty. -/
def issuedLease : Except String DatabaseCredentials → List String
  | .ok creds => if creds.leaseID = "" then [] else [creds.leaseID]
  | .error _ => []

/-- The key `key` if it was generated and its certificate signed. -/
def signedKey (generated : Except String (List UInt8)) (signed : Except String String) (key : Nat) :
    List Nat :=
  match generated, signed with
  | .ok _, .ok _ => [key]
  | _, _ => []

namespace CredentialManager

/-- `NewCredentialManager`. -/
def newCredentialManager : CredentialManager :=
  ⟨[], []⟩

/-- `RequestDBCredentials`, given Vault's answer: track a non-empty lease. -/
def requestDBCredentials (m : CredentialManager) (response : Except String DatabaseCredentials) :
    CredentialManager × Except String DBCredentials :=
  match response with
  | .error err => (m, .error err)
  | .ok creds =>
      ({ m with leases := if creds.leaseID ≠ "" then m.leases ++ [creds.leaseID] else m.leases },
        .ok ⟨creds.username, creds.password, creds.leaseID⟩)

/-- `RequestSSHCredentials`, given the outcome of generating the key pair (the
private key's bytes), the handle the new key gets, and Vault's signing answer:
track the key once it is signed. -/
def requestSSHCredentials (m : CredentialManager) (req : SSHCARequest)
    (generated : Except String (List UInt8)) (key : Nat) (signed : Except String String) :
    CredentialManager × Except String SSHCredentials :=
  match generated with
  | .error err => (m, .error ("generate ephemeral key: " ++ err))
  | .ok privKey =>
      match signed with
      | .error err => (m, .error ("vault SSH CA sign: " ++ err))
      | .ok signedKey => ({ m with sshKeys := m.sshKeys ++ [key] }, .ok ⟨privKey, signedKey, req.user⟩)

@[simp]
theorem requestDBCredentials_leases (m : CredentialManager)
    (response : Except String DatabaseCredentials) :
    (m.requestDBCredentials response).1.leases = m.leases ++ issuedLease response := by
  cases response with
  | error err => simp [requestDBCredentials, issuedLease]
  | ok creds => by_cases empty : creds.leaseID = "" <;> simp [requestDBCredentials, issuedLease, empty]

@[simp]
theorem requestDBCredentials_sshKeys (m : CredentialManager)
    (response : Except String DatabaseCredentials) :
    (m.requestDBCredentials response).1.sshKeys = m.sshKeys := by
  cases response <;> rfl

@[simp]
theorem requestSSHCredentials_leases (m : CredentialManager) (req : SSHCARequest)
    (generated : Except String (List UInt8)) (key : Nat) (signed : Except String String) :
    (m.requestSSHCredentials req generated key signed).1.leases = m.leases := by
  cases generated <;> cases signed <;> rfl

@[simp]
theorem requestSSHCredentials_sshKeys (m : CredentialManager) (req : SSHCARequest)
    (generated : Except String (List UInt8)) (key : Nat) (signed : Except String String) :
    (m.requestSSHCredentials req generated key signed).1.sshKeys =
      m.sshKeys ++ signedKey generated signed key := by
  cases generated <;> cases signed <;> simp [requestSSHCredentials, signedKey]

/-- The revoking loop of `Cleanup` from call number `i`, given the outcome of
each `RevokeLease` call: the leases passed to `RevokeLease`, in order, and the
errors collected. -/
def revokeLeases (revoke : Nat → Option String) : Nat → List String → List String × List String
  | _, [] => ([], [])
  | i, leaseID :: rest =>
      let (calls, errs) := revokeLeases revoke (i + 1) rest
      (leaseID :: calls,
        match revoke i with
        | some err => ("revoke lease " ++ leaseID ++ ": " ++ err) :: errs
        | none => errs)

/-- The zeroing loop of `Cleanup`: every byte of each tracked key in turn
becomes `0`. -/
def zeroKeys : List Nat → (Nat → List UInt8) → Nat → List UInt8
  | [], memory => memory
  | key :: rest, memory =>
      zeroKeys rest fun other => if other = key then (memory other).map (fun _ => 0) else memory other

/-- `Cleanup`: the manager and memory after it, the `RevokeLease` calls it
made, and the errors it returns. -/
def cleanup (m : CredentialManager) (memory : Nat → List UInt8) (revoke : Nat → Option String) :
    CredentialManager × (Nat → List UInt8) × List String × List String :=
  (⟨[], []⟩, zeroKeys m.sshKeys memory, revokeLeases revoke 0 m.leases)

/-- `ActiveLeaseCount`. -/
def activeLeaseCount (m : CredentialManager) : Nat :=
  m.leases.length

/-- The loop calls `RevokeLease` once per lease, in order, and returns one error
per failed call. -/
theorem revokeLeases_eq (revoke : Nat → Option String) :
    ∀ (i : Nat) (leases : List String), revokeLeases revoke i leases =
      (leases, (leases.enumFrom i).filterMap fun call =>
        (revoke call.1).map fun err => "revoke lease " ++ call.2 ++ ": " ++ err)
  | _, [] => rfl
  | i, leaseID :: rest => by
      simp only [revokeLeases, revokeLeases_eq revoke (i + 1) rest, List.enumFrom_cons,
        List.filterMap_cons]
      cases revoke i <;> rfl

/-- After the zeroing loop, exactly the tracked keys hold zeroes, as many as
they held bytes. -/
theorem zeroKeys_eq :
    ∀ (sshKeys : List Nat) (memory : Nat → List UInt8) (key : Nat), zeroKeys sshKeys memory key =
      if key ∈ sshKeys then (memory key).map (fun _ => 0) else memory key
  | [], _, _ => rfl
  | first :: rest, memory, key => by
      rw [zeroKeys, zeroKeys_eq rest]
      by_cases same : key = first
      · subst same
        simp [List.map_map, Function.comp_def]
      · by_cases later : key ∈ rest <;> simp [same, later]

end CredentialManager

/-! ## A run's calls -/

/-- The manager of one run, the memory holding its keys, the next key handle,
and what Vault saw: every non-empty lease it issued to a successful request,
every key whose certificate it signed, and every `RevokeLease` call, oldest
first, with how many leases and keys came before the last `Cleanup`. -/
structure CredentialState where
  manager : CredentialManager
  memory : Nat → List UInt8
  nextKey : Nat
  issued : List String
  signed : List Nat
  revoked : List String
  issuedMark : Nat
  signedMark : Nat

/-- The calls of a run, with Vault's answers and the outcome of key generation. -/
inductive CredentialEvent
  | requestDB (response : Except String DatabaseCredentials)
  | requestSSH (req : SSHCARequest) (generated : Except String (List UInt8))
      (signed : Except String String)
  | cleanup (revoke : Nat → Option String)

namespace CredentialState

/-- One call. -/
def step (s : CredentialState) : CredentialEvent → Option CredentialState
  | .requestDB response =>
      some { s with
        manager := (s.manager.requestDBCredentials response).1
        issued := s.issued ++ issuedLease response }
  | .requestSSH req generated signed =>
      some { s with
        manager := (s.manager.requestSSHCredentials req generated s.nextKey signed).1
        memory := match generated with
          | .ok privKey => fun key => if key = s.nextKey then privKey else s.memory key
          | .error _ => s.memory
        nextKey := s.nextKey + 1
        signed := s.signed ++ signedKey generated signed s.nextKey }
  | .cleanup revoke =>
      let result := s.manager.cleanup s.memory revoke
      some { s with
        manager := result.1
        memory := result.2.1
        revoked := s.revoked ++ result.2.2.1
        issuedMark := s.issued.length
        signedMark := s.signed.length }

/-- A new manager, and every sequence of calls on it. -/
def system : System CredentialState CredentialEvent :=
  ⟨fun s => ∃ memory nextKey,
    s = ⟨CredentialManager.newCredentialManager, memory, nextKey, [], [], [], 0, 0⟩, step⟩

/-- The manager tracks exactly the leases and keys obtained since the last
`Cleanup`, and the leases obtained before it have each been revoked once, in
order. -/
structure Tracked (s : CredentialState) : Prop where
  leases : s.manager.leases = s.issued.drop s.issuedMark
  sshKeys : s.manager.sshKeys = s.signed.drop s.signedMark
  revoked : s.revoked = s.issued.take s.issuedMark
  issuedMark : s.issuedMark ≤ s.issued.length
  signedMark : s.signedMark ≤ s.signed.length

theorem Tracked.step {s s' : CredentialState} {event : CredentialEvent} (tracked : Tracked s)
    (stepped : s.step event = some s') : Tracked s' := by
  cases event with
  | requestDB response =>
      cases stepped
      refine ⟨?_, by simpa using tracked.sshKeys, ?_, ?_, tracked.signedMark⟩
      · simp [tracked.leases, List.drop_append_of_le_length tracked.issuedMark]
      · simpa [List.take_append_of_le_length tracked.issuedMark] using tracked.revoked
      · simpa using Nat.le_add_right_of_le tracked.issuedMark
  | requestSSH req generated signed =>
      cases stepped
      refine ⟨by simpa using tracked.leases, ?_, tracked.revoked, tracked.issuedMark, ?_⟩
      · simp [tracked.sshKeys, List.drop_append_of_le_length tracked.signedMark]
      · simpa using Nat.le_add_right_of_le tracked.signedMark
  | cleanup revoke =>
      cases stepped
      refine ⟨by simp [CredentialManager.cleanup], by simp [CredentialManager.cleanup], ?_,
        Nat.le_refl _, Nat.le_refl _⟩
      simp only [CredentialManager.cleanup, CredentialManager.revokeLeases_eq, tracked.revoked,
        tracked.leases, List.take_append_drop, List.take_length]

theorem tracked_of_reachable {s : CredentialState} (reachable : system.Reachable s) : Tracked s := by
  induction reachable with
  | init initial =>
      obtain ⟨memory, nextKey, rfl⟩ := initial
      exact ⟨rfl, rfl, rfl, Nat.le_refl _, Nat.le_refl _⟩
  | step event _ stepped tracked => exact tracked.step stepped

theorem cleanup_revokes_issued_leases :
    (∀ s revoke manager memory calls errs, system.Reachable s →
      s.manager.cleanup s.memory revoke = (manager, memory, calls, errs) →
      calls = s.issued.drop s.issuedMark ∧
      errs = calls.enum.filterMap (fun call =>
        (revoke call.1).map fun err => "revoke lease " ++ call.2 ++ ": " ++ err) ∧
      (∀ key, memory key = if key ∈ s.signed.drop s.signedMark then (s.memory key).map (fun _ => 0)
        else s.memory key) ∧
      manager.leases = [] ∧ manager.sshKeys = []) ∧
    (∀ s, system.Reachable s →
      s.revoked = s.issued.take s.issuedMark ∧ s.manager.leases = s.issued.drop s.issuedMark) := by
  refine ⟨fun s revoke manager memory calls errs reachable cleaned => ?_,
    fun s reachable => ⟨(tracked_of_reachable reachable).revoked,
      (tracked_of_reachable reachable).leases⟩⟩
  have tracked := tracked_of_reachable reachable
  simp only [CredentialManager.cleanup, CredentialManager.revokeLeases_eq, Prod.mk.injEq] at cleaned
  obtain ⟨rfl, rfl, rfl, rfl⟩ := cleaned
  refine ⟨tracked.leases, rfl, fun key => ?_, rfl, rfl⟩
  rw [CredentialManager.zeroKeys_eq, tracked.sshKeys]

/-- A manager that has obtained one database lease. -/
def leaseHeld : CredentialState :=
  ⟨⟨["database/creds/app/lease-1"], []⟩, fun _ => [], 0, ["database/creds/app/lease-1"], [], [], 0, 0⟩

/-- A lease obtained by a run is revoked by its next `Cleanup`: the state that
holds it is reachable, the cleanup calls `RevokeLease` on it, and afterwards
it is the lease Vault saw revoked. -/
theorem obtained_lease_revoked :
    system.replay ⟨CredentialManager.newCredentialManager, fun _ => [], 0, [], [], [], 0, 0⟩
        [.requestDB (.ok ⟨"v-app", "s3cr3t", "database/creds/app/lease-1"⟩)] = some leaseHeld ∧
      (leaseHeld.manager.cleanup leaseHeld.memory fun _ => none).2.2.1 =
        leaseHeld.issued.drop leaseHeld.issuedMark ∧
      ∃ cleaned, leaseHeld.step (.cleanup fun _ => none) = some cleaned ∧
        cleaned.revoked = ["database/creds/app/lease-1"] ∧
        cleaned.revoked = cleaned.issued.take cleaned.issuedMark ∧
        cleaned.manager.leases = cleaned.issued.drop cleaned.issuedMark := by
  have replayed : system.replay ⟨CredentialManager.newCredentialManager, fun _ => [], 0, [], [], [], 0, 0⟩
      [.requestDB (.ok ⟨"v-app", "s3cr3t", "database/creds/app/lease-1"⟩)] = some leaseHeld := rfl
  have held : system.Reachable leaseHeld :=
    System.reachable_of_replay (System.Reachable.init ⟨_, _, rfl⟩) replayed
  refine ⟨replayed, (cleanup_revokes_issued_leases.1 _ (fun _ => none) _ _ _ _ held rfl).1, _, rfl, rfl,
    cleanup_revokes_issued_leases.2 _ (held.step (.cleanup fun _ => none) rfl)⟩

end CredentialState

end Legator.Vault

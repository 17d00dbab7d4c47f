import Mathlib.Data.List.Basic

/-!
# Role-based authorization

`Engine.Authorize` collects the policies whose subject matchers match the user,
takes the highest-ranked of them, and checks the action against that one
policy's role and the resource against that one policy's scope. The scan that
picks the policy replaces its choice only on a strictly higher rank, so it
picks the first matched policy of top rank: `FirstOfTopRank.foldl` proves this
of the scan from one step lemma, and `authorize_allowed_iff` states the
decision in those terms.

Roles, actions and autonomy levels are Go strings, so any string can stand in
for them. A raw OIDC claim is an `interface{}` compared after
`fmt.Sprintf("%v", v)`; the model keeps that printed form.
-/

namespace Legator.Rbac

/-- The actions `rolePermits` grants a viewer: `ActionViewAgents`,
`ActionViewRuns`, `ActionViewInventory` and `ActionViewAudit`. -/
def viewerActions : List String :=
  ["agents:view", "runs:view", "inventory:view", "audit:view"]

/-- The actions `rolePermits` grants an operator: a viewer's, then
`ActionRunAgent`, `ActionAbortRun`, `ActionApprove` and `ActionChat`. -/
def operatorActions : List String :=
  viewerActions ++ ["agents:run", "runs:abort", "approvals:decide", "chat:use"]

/-- `roleRank`: higher is more privilege; a role that is not built in ranks
zero. -/
def roleRank (r : String) : Nat :=
  match r with
  | "viewer" => 1
  | "operator" => 2
  | "admin" => 3
  | _ => 0

/-- `rolePermits`. -/
def rolePermits (r action : String) : Bool :=
  match r with
  | "admin" => true
  | "operator" => operatorActions.contains action
  | "viewer" => viewerActions.contains action
  | _ => false

/-- `matchGlob`: `*` matches everything, a pattern ending in `*` matches the
strings that begin with the rest of it, and any other pattern only itself. -/
def matchGlob (s pattern : String) : Bool :=
  if pattern = "*" then true
  else if pattern.data.getLast? = some '*' then pattern.data.dropLast.isPrefixOf s.data
  else s == pattern

/-- `UserIdentity`, without the display name, which nothing reads. `claims`
gives each raw claim as `%v` prints it. -/
structure UserIdentity where
  subject : String
  email : String
  groups : List String
  claims : String → Option String

/-- `SubjectMatcher`. -/
structure SubjectMatcher where
  claim : String
  value : String
  deriving DecidableEq, Repr

/-- `PolicyScope`. -/
structure PolicyScope where
  tags : List String
  namespaces : List String
  agents : List String
  maxAutonomy : String
  deriving DecidableEq, Repr

/-- The zero `PolicyScope`, which a denial carries. -/
def emptyScope : PolicyScope :=
  ⟨[], [], [], ""⟩

/-- `UserPolicy`. -/
structure UserPolicy where
  name : String
  subjects : List SubjectMatcher
  role : String
  scope : PolicyScope
  deriving DecidableEq, Repr

/-- `Decision`. -/
structure Decision where
  allowed : Bool
  reason : String
  effectiveScope : PolicyScope
  deriving DecidableEq, Repr

/-- `Engine`. -/
structure Engine where
  policies : List UserPolicy

/-- `NewEngine`. -/
def newEngine (policies : List UserPolicy) : Engine :=
  ⟨policies⟩

@[simp] theorem newEngine_policies (policies : List UserPolicy) :
    (newEngine policies).policies = policies :=
  rfl

/-- `Engine.matchesSubject`: some matcher matches the user. The email and the
groups match by glob, the subject exactly, and any other claim by its printed
value. -/
def matchesSubject (user : UserIdentity) (subjects : List SubjectMatcher) : Bool :=
  subjects.any fun s =>
    match s.claim with
    | "email" => matchGlob user.email s.value
    | "sub" | "subject" => user.subject == s.value
    | "groups" | "group" => user.groups.any fun g => matchGlob g s.value
    | claim => user.claims claim == some s.value

/-- `Engine.inScope`: a scope with no tags, namespaces or agents holds every
resource; any other holds the resources that match one of its agent, tag or
namespace patterns. -/
def inScope (scope : PolicyScope) (resource : String) : Bool :=
  if scope.tags.isEmpty && scope.namespaces.isEmpty && scope.agents.isEmpty then true
  else
    scope.agents.any (matchGlob resource) || scope.tags.any (matchGlob resource) ||
      scope.namespaces.any (matchGlob resource)

/-- The policies whose subjects match the user, in the engine's order. -/
def matchedPolicies (policies : List UserPolicy) (user : UserIdentity) : List UserPolicy :=
  policies.filter fun p => matchesSubject user p.subjects

/-- One step of `Authorize`'s scan for the highest-privilege policy: the choice
moves only to a policy of strictly higher rank. -/
def preferHigher (best p : UserPolicy) : UserPolicy :=
  if roleRank best.role < roleRank p.role then p else best

/-- The scan over the matched policies, which starts at the first of them. -/
def bestPolicy (first : UserPolicy) (rest : List UserPolicy) : UserPolicy :=
  rest.foldl preferHigher first

/-- `Engine.Authorize`; `none` is a nil user. -/
def Engine.authorize (e : Engine) (user : Option UserIdentity) (action resource : String) :
    Decision :=
  match user with
  | none => ⟨false, "no user identity", emptyScope⟩
  | some user =>
      match matchedPolicies e.policies user with
      | [] => ⟨false, "no policy matches user " ++ user.email, emptyScope⟩
      | first :: rest =>
          let best := bestPolicy first rest
          if !rolePermits best.role action then
            ⟨false, "role " ++ best.role ++ " does not permit action " ++ action, emptyScope⟩
          else if resource != "" && !inScope best.scope resource then
            ⟨false, "resource " ++ resource ++ " is outside policy scope", emptyScope⟩
          else
            ⟨true, "permitted by policy " ++ best.name ++ " (role: " ++ best.role ++ ")",
              best.scope⟩

/-! ## Ranks and permissions -/

/-- Every role is one of the three built in, or ranks zero and permits
nothing. -/
theorem role_cases (r : String) :
    r = "viewer" ∨ r = "operator" ∨ r = "admin" ∨
      (roleRank r = 0 ∧ ∀ action, rolePermits r action = false) := by
  by_cases viewer : r = "viewer"
  · exact .inl viewer
  by_cases operator : r = "operator"
  · exact .inr (.inl operator)
  by_cases admin : r = "admin"
  · exact .inr (.inr (.inl admin))
  refine .inr (.inr (.inr ⟨?_, fun action => ?_⟩))
  · unfold roleRank
    split <;> simp_all
  · unfold rolePermits
    split <;> simp_all

/-- A role's permissions depend on its rank alone, and grow with it. -/
theorem rolePermits_iff_rank (r action : String) :
    rolePermits r action = true ↔
      3 ≤ roleRank r ∨ (2 ≤ roleRank r ∧ action ∈ operatorActions) ∨
        (1 ≤ roleRank r ∧ action ∈ viewerActions) := by
  rcases role_cases r with rfl | rfl | rfl | ⟨zero, never⟩
  · simp [rolePermits, roleRank]
  · simp [rolePermits, roleRank, operatorActions]
    exact Or.inl
  · simp [rolePermits, roleRank]
  · simp [zero, never]

theorem rolePermits_of_rank_le {r r' action : String} (permits : rolePermits r action = true)
    (ranked : roleRank r ≤ roleRank r') : rolePermits r' action = true := by
  rw [rolePermits_iff_rank] at permits ⊢
  rcases permits with top | ⟨two, operator⟩ | ⟨one, viewer⟩
  · exact .inl (by omega)
  · exact .inr (.inl ⟨by omega, operator⟩)
  · exact .inr (.inr ⟨by omega, viewer⟩)

/-! ## The policy `Authorize` picks -/

/-- `best` stands in `seen` after policies of lower rank only, and no policy
after it outranks it. -/
def FirstOfTopRank (seen : List UserPolicy) (best : UserPolicy) : Prop :=
  ∃ pre post, seen = pre ++ best :: post ∧ (∀ q ∈ pre, roleRank q.role < roleRank best.role) ∧
    ∀ q ∈ post, roleRank q.role ≤ roleRank best.role

namespace FirstOfTopRank

variable {seen : List UserPolicy} {best : UserPolicy}

theorem rank_le (top : FirstOfTopRank seen best) {q : UserPolicy} (mem : q ∈ seen) :
    roleRank q.role ≤ roleRank best.role := by
  obtain ⟨pre, post, rfl, below, atMost⟩ := top
  rcases List.mem_append.mp mem with early | late
  · exact (below q early).le
  · rcases List.mem_cons.mp late with rfl | later
    · exact le_rfl
    · exact atMost q later

/-- The step lemma: one more policy keeps the scan's choice the first of top
rank. -/
theorem preferHigher (top : FirstOfTopRank seen best) (p : UserPolicy) :
    FirstOfTopRank (seen ++ [p]) (Rbac.preferHigher best p) := by
  unfold Rbac.preferHigher
  split_ifs with higher
  · exact ⟨seen, [], rfl, fun q mem => lt_of_le_of_lt (top.rank_le mem) higher, by simp⟩
  · obtain ⟨pre, post, rfl, below, atMost⟩ := top
    refine ⟨pre, post ++ [p], by simp, below, fun q mem => ?_⟩
    rcases List.mem_append.mp mem with later | last
    · exact atMost q later
    · rw [List.mem_singleton.mp last]
      omega

/-- The run lemma: the rest of the scan keeps the choice the first of top
rank. -/
theorem foldl (top : FirstOfTopRank seen best) (rest : List UserPolicy) :
    FirstOfTopRank (seen ++ rest) (rest.foldl Rbac.preferHigher best) := by
  induction rest generalizing seen best with
  | nil => simpa using top
  | cons p rest more => simpa using more (top.preferHigher p)

end FirstOfTopRank

theorem bestPolicy_firstOfTopRank (first : UserPolicy) (rest : List UserPolicy) :
    FirstOfTopRank (first :: rest) (bestPolicy first rest) :=
  FirstOfTopRank.foldl (⟨[], [], rfl, by simp, by simp⟩ : FirstOfTopRank [first] first) rest

/-- The first of `matched` whose rank no policy of `matched` exceeds. -/
def topRanked (matched : List UserPolicy) : Option UserPolicy :=
  matched.find? fun q => matched.all fun q' => roleRank q'.role ≤ roleRank q.role

/-- The first policy of top rank is unique, and `topRanked` computes it. -/
theorem FirstOfTopRank.topRanked_eq {seen : List UserPolicy} {best : UserPolicy}
    (top : FirstOfTopRank seen best) : topRanked seen = some best := by
  rw [topRanked, List.find?_eq_some]
  obtain ⟨pre, post, split, below, -⟩ := id top
  have present : best ∈ seen := by simp [split]
  refine ⟨by simpa using fun q mem => top.rank_le mem, pre, post, split, fun q mem => ?_⟩
  simpa using ⟨best, present, below q mem⟩

theorem topRanked_cons (first : UserPolicy) (rest : List UserPolicy) :
    topRanked (first :: rest) = some (bestPolicy first rest) :=
  (bestPolicy_firstOfTopRank first rest).topRanked_eq

/-! ## The decision -/

/-- `Authorize` allows exactly when the first matched policy of top rank
permits the action and, for a named resource, holds the resource in scope. -/
theorem authorize_allowed_iff (e : Engine) (user : UserIdentity) (action resource : String) :
    (e.authorize (some user) action resource).allowed = true ↔
      ∃ best, topRanked (matchedPolicies e.policies user) = some best ∧
        rolePermits best.role action = true ∧ (resource = "" ∨ inScope best.scope resource = true) := by
  simp only [Engine.authorize]
  cases matched : matchedPolicies e.policies user with
  | nil => simp [topRanked]
  | cons first rest =>
      rw [topRanked_cons]
      dsimp only
      split_ifs with denied outside <;> simp_all [or_iff_not_imp_left]

/-! ## Against the union of the grants -/

/-- The reference decision of the spec: some matching policy permits the
action and, for a named resource, holds the resource in scope. -/
def referenceAllows (policies : List UserPolicy) (user : UserIdentity)
    (action resource : String) : Bool :=
  policies.any fun p =>
    matchesSubject user p.subjects && rolePermits p.role action &&
      (resource == "" || inScope p.scope resource)

theorem mem_matchedPolicies {policies : List UserPolicy} {user : UserIdentity} {p : UserPolicy} :
    p ∈ matchedPolicies policies user ↔ p ∈ policies ∧ matchesSubject user p.subjects = true := by
  simp [matchedPolicies]

/-- `Authorize` grants nothing that the matching policies do not grant between
them. -/
theorem referenceAllows_of_authorize {policies : List UserPolicy} {user : UserIdentity}
    {action resource : String}
    (allowed : ((newEngine policies).authorize (some user) action resource).allowed = true) :
    referenceAllows policies user action resource = true := by
  obtain ⟨best, top, permits, held⟩ := (authorize_allowed_iff _ user action resource).mp allowed
  obtain ⟨mem, subjectMatched⟩ := mem_matchedPolicies.mp (List.mem_of_find?_eq_some top)
  simp only [referenceAllows, List.any_eq_true, Bool.and_eq_true, Bool.or_eq_true, beq_iff_eq]
  exact ⟨best, mem, ⟨subjectMatched, permits⟩, held⟩

/-- Without a resource the scope plays no part, and `Authorize` grants what
any matching policy grants: the top-ranked matching role permits every action
that a lower one does. -/
theorem authorize_of_referenceAllows {policies : List UserPolicy} {user : UserIdentity}
    {action : String} (granted : referenceAllows policies user action "" = true) :
    ((newEngine policies).authorize (some user) action "").allowed = true := by
  simp only [referenceAllows, List.any_eq_true, Bool.and_eq_true] at granted
  obtain ⟨p, mem, ⟨subjectMatched, permits⟩, -⟩ := granted
  have matched : p ∈ matchedPolicies policies user := mem_matchedPolicies.mpr ⟨mem, subjectMatched⟩
  rw [authorize_allowed_iff, newEngine_policies]
  cases listed : matchedPolicies policies user with
  | nil => simp [listed] at matched
  | cons first rest =>
      rw [listed] at matched
      exact ⟨bestPolicy first rest, topRanked_cons first rest,
        rolePermits_of_rank_le permits ((bestPolicy_firstOfTopRank first rest).rank_le matched),
        .inl rfl⟩

theorem authorize_grants_first_top_ranked (policies : List UserPolicy) (user : UserIdentity)
    (action resource : String) :
    (((newEngine policies).authorize (some user) action resource).allowed = true ↔
        ∃ best, topRanked (matchedPolicies policies user) = some best ∧
          rolePermits best.role action = true ∧
            (resource = "" ∨ inScope best.scope resource = true)) ∧
      (((newEngine policies).authorize (some user) action resource).allowed = true →
        referenceAllows policies user action resource = true) ∧
      ((newEngine policies).authorize (some user) action "").allowed =
        referenceAllows policies user action "" :=
  ⟨authorize_allowed_iff _ user action resource, referenceAllows_of_authorize,
    Bool.eq_iff_iff.mpr ⟨referenceAllows_of_authorize, authorize_of_referenceAllows⟩⟩

/-- A user of the group `sre`. -/
def sreUser : UserIdentity :=
  ⟨"u1", "sre@corp", ["sre"], fun _ => none⟩

/-- A policy for the group `sre` with the given role over the given agents. -/
def sreGrant (name role : String) (agents : List String) : UserPolicy :=
  ⟨name, [⟨"groups", "sre"⟩], role, ⟨[], [], agents, ""⟩⟩

theorem scoped_grants_shadow_broader_ones :
    ¬ (∀ policies user action resource,
        ((newEngine policies).authorize (some user) action resource).allowed =
          referenceAllows policies user action resource) ∧
    ¬ (∀ policies p user action resource, matchesSubject user p.subjects = true →
        ((newEngine policies).authorize (some user) action resource).allowed = true →
        ((newEngine (policies ++ [p])).authorize (some user) action resource).allowed = true) ∧
    ¬ (∀ policies policies' user action resource, List.Perm policies policies' →
        ((newEngine policies).authorize (some user) action resource).allowed =
          ((newEngine policies').authorize (some user) action resource).allowed) := by
  refine ⟨fun union => ?_, fun monotone => ?_, fun unordered => ?_⟩
  · have viewing := union [sreGrant "view-all" "viewer" [], sreGrant "admin-a" "admin" ["a"]]
      sreUser "agents:view" "b"
    revert viewing
    decide
  · have viewing := monotone [sreGrant "view-all" "viewer" []] (sreGrant "admin-a" "admin" ["a"])
      sreUser "agents:view" "b" (by decide) (by decide)
    revert viewing
    decide
  · have running := unordered [sreGrant "run-a" "operator" ["a"], sreGrant "run-b" "operator" ["b"]]
      [sreGrant "run-b" "operator" ["b"], sreGrant "run-a" "operator" ["a"]]
      sreUser "agents:run" "b" (List.Perm.swap _ _ _)
    revert running
    decide

end Legator.Rbac

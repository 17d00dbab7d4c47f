import Legator.Skills.Path

/-!
# OCI skill references

`ParseOCIRef` strips `oci://`, cuts a digest off at the first `@sha256:`,
splits the rest at `/` into a registry and a path, and cuts a tag off the last
part at its last `:`, defaulting to `latest` when there is neither a tag nor a
digest. `OCIRef.String` prints the reference back, with the digest in place of
the tag when there is one.

Printing and parsing again loses a tag that stood beside a digest, and it
reads a path ending in `@sha256` followed by the printed tag as a digest.
Outside those two cases the round trip is exact (`ociRef_round_trip`).

Go strings are byte strings; every pattern here is ASCII, and an ASCII byte
never occurs inside the encoding of another character, so the model works on
the characters of the string.
-/

namespace Legator.Skills

/-- `strings.TrimPrefix`. -/
def trimPrefixOf (pre s : List Char) : List Char :=
  if pre.isPrefixOf s then s.drop pre.length else s

/-- `strings.Index(s, pat)`: the first position of `s` at which `pat` occurs. -/
def index (pat : List Char) : List Char → Option Nat
  | [] => if pat.isPrefixOf [] then some 0 else none
  | c :: rest => if pat.isPrefixOf (c :: rest) then some 0 else (index pat rest).map (· + 1)

/-- `strings.LastIndex(s, sep)` for a one-character `sep`. -/
def lastIndex (sep : Char) : List Char → Option Nat
  | [] => none
  | c :: rest =>
      match lastIndex sep rest with
      | some i => some (i + 1)
      | none => if c = sep then some 0 else none

/-- `OCIRef`. -/
structure OCIRef where
  registry : String
  path : String
  tag : String
  digest : String
  deriving DecidableEq, Repr

/-- The digest step of `ParseOCIRef`: the digest, from after the `@` of the
first `@sha256:`, and what stands before that `@`. -/
def splitDigest (ref : List Char) : List Char × List Char :=
  match index "@sha256:".data ref with
  | some idx => (ref.drop (idx + 1), ref.take idx)
  | none => ([], ref)

/-- The tag step of `ParseOCIRef`: the tag, from after the last `:` of the last
part, and what stands before that `:`. -/
def splitTag (last : List Char) : List Char × List Char :=
  match lastIndex ':' last with
  | some idx => (last.drop (idx + 1), last.take idx)
  | none => ([], last)

/-- `ParseOCIRef`. -/
def parseOCIRef (s : String) : Except String OCIRef :=
  let ref := trimPrefixOf "oci://".data s.data
  if ref = [] then .error "empty OCI reference"
  else
    match splitDigest ref with
    | (digest, ref) =>
        let parts := ref.splitOn '/'
        if parts.length < 2 then .error "invalid OCI reference: need at least registry/name"
        else
          match splitTag (parts.getLast?.getD []) with
          | (tag, last) =>
              let parts := parts.dropLast ++ [last]
              .ok ⟨⟨parts.headD []⟩, ⟨['/'].intercalate parts.tail⟩,
                ⟨if tag = [] ∧ digest = [] then "latest".data else tag⟩, ⟨digest⟩⟩

/-- `OCIRef.String`. -/
def OCIRef.toString (r : OCIRef) : String :=
  if r.digest ≠ "" then "oci://" ++ r.registry ++ "/" ++ r.path ++ "@" ++ r.digest
  else if r.tag ≠ "" then "oci://" ++ r.registry ++ "/" ++ r.path ++ ":" ++ r.tag
  else "oci://" ++ r.registry ++ "/" ++ r.path

/-! ## The search functions -/

section Search

theorem index_eq_none_iff {pat : List Char} : ∀ {s : List Char}, index pat s = none ↔ ¬ pat <:+: s
  | [] => by
      simp only [index, List.infix_nil]
      split_ifs with empty <;> simp_all [List.isPrefixOf_iff_prefix]
  | c :: rest => by
      have later := @index_eq_none_iff pat rest
      simp only [index, List.infix_cons_iff]
      split_ifs with here <;> simp_all [List.isPrefixOf_iff_prefix]

/-- `Index` finds an occurrence, and none before it. -/
theorem index_eq_some {pat : List Char} (nonempty : pat ≠ []) : ∀ {s : List Char} {i : Nat},
    index pat s = some i → pat <+: s.drop i ∧ ¬ pat <:+: s.take i
  | [], _, found => by
      simp only [index] at found
      split_ifs at found with empty
      rw [List.isPrefixOf_iff_prefix, List.prefix_nil] at empty
      exact absurd empty nonempty
  | c :: rest, i, found => by
      simp only [index] at found
      split_ifs at found with here
      · cases found
        exact ⟨List.isPrefixOf_iff_prefix.mp here, by simpa using nonempty⟩
      · obtain ⟨k, later, rfl⟩ := Option.map_eq_some'.mp found
        obtain ⟨inRest, notBefore⟩ := index_eq_some nonempty later
        refine ⟨inRest, fun occurs => ?_⟩
        rw [List.take_succ_cons, List.infix_cons_iff] at occurs
        rcases occurs with start | inside
        · exact here (List.isPrefixOf_iff_prefix.mpr
            (start.trans ((List.prefix_cons_inj c).mpr (List.take_prefix k rest))))
        · exact notBefore inside

theorem index_append {pat X Y : List Char} (here : pat <+: Y)
    (before : ∀ j < X.length, ¬ pat <+: (X ++ Y).drop j) : index pat (X ++ Y) = some X.length := by
  induction X with
  | nil =>
      cases Y <;> simp [index, List.isPrefixOf_iff_prefix.mpr here]
  | cons x X more =>
      have notHere := before 0 (by simp)
      rw [List.cons_append, index, if_neg (by simpa [List.isPrefixOf_iff_prefix] using notHere),
        more (fun j lt => before (j + 1) (by simp; omega))]
      rfl

theorem lastIndex_eq_none_iff {sep : Char} : ∀ {s : List Char}, lastIndex sep s = none ↔ sep ∉ s
  | [] => by simp [lastIndex]
  | c :: rest => by
      have later := @lastIndex_eq_none_iff sep rest
      simp only [lastIndex]
      cases found : lastIndex sep rest with
      | some i =>
          have present : sep ∈ rest := by
            by_contra absent
            rw [later.mpr absent] at found
            cases found
          simp [present]
      | none =>
          have absent := later.mp found
          by_cases here : c = sep
          · simp [here]
          · simp [here, absent, Ne.symm here]

/-- `LastIndex` finds an occurrence, and none after it. -/
theorem lastIndex_eq_some {sep : Char} : ∀ {s : List Char} {i : Nat}, lastIndex sep s = some i →
    s = s.take i ++ sep :: s.drop (i + 1) ∧ sep ∉ s.drop (i + 1)
  | [], _, found => by cases found
  | c :: rest, i, found => by
      simp only [lastIndex] at found
      cases later : lastIndex sep rest with
      | some k =>
          rw [later] at found
          cases found
          obtain ⟨split, after⟩ := lastIndex_eq_some later
          refine ⟨?_, by simpa using after⟩
          rw [List.take_succ_cons, List.drop_succ_cons, List.cons_append, ← split]
      | none =>
          rw [later] at found
          split_ifs at found with here
          cases found
          exact ⟨by simp [here], by simpa using lastIndex_eq_none_iff.mp later⟩

theorem lastIndex_append {sep : Char} {B : List Char} (noSep : sep ∉ B) : ∀ A : List Char,
    lastIndex sep (A ++ sep :: B) = some A.length
  | [] => by simp [lastIndex, lastIndex_eq_none_iff.mpr noSep]
  | a :: A => by simp [lastIndex, lastIndex_append noSep A]

/-- `Index` of a one-character pattern finds its first occurrence. -/
theorem index_single {sep : Char} (B : List Char) : ∀ {A : List Char}, sep ∉ A →
    index [sep] (A ++ sep :: B) = some A.length
  | [], _ => by simp [index, List.isPrefixOf]
  | a :: A, absent => by
      have other : (sep == a) = false := beq_false_of_ne fun same => absent (same ▸ List.mem_cons_self _ _)
      simp [index, List.isPrefixOf, other, index_single B (List.not_mem_of_not_mem_cons absent)]

theorem index_single_eq_none {sep : Char} {A : List Char} (absent : sep ∉ A) : index [sep] A = none :=
  index_eq_none_iff.mpr fun ⟨before, after, split⟩ => absent (split ▸ by simp)

@[simp] theorem trimPrefixOf_append (pre s : List Char) : trimPrefixOf pre (pre ++ s) = s := by
  simp [trimPrefixOf]

end Search

/-! ## Lists around a marker -/

section Marker

theorem prefix_of_prefix_append_cons {c : Char} {B : List Char} :
    ∀ {l A : List Char}, l <+: A ++ c :: B → c ∉ l → l <+: A
  | [], _, _, _ => List.nil_prefix
  | x :: l, [], start, notIn => by
      obtain ⟨t, same, -⟩ := (List.prefix_cons_iff.mp start).resolve_left (List.cons_ne_nil _ _)
      obtain ⟨rfl, -⟩ := List.cons.inj same
      simp at notIn
  | x :: l, a :: A, start, notIn => by
      obtain ⟨t, same, rest⟩ := (List.prefix_cons_iff.mp start).resolve_left (List.cons_ne_nil _ _)
      obtain ⟨rfl, rfl⟩ := List.cons.inj same
      exact (List.prefix_cons_inj x).mpr (prefix_of_prefix_append_cons rest (by simp_all))

theorem suffix_of_suffix_append_cons {c : Char} {l A B : List Char} (suffix : l <:+ A ++ c :: B)
    (notIn : c ∉ l) : l <:+ B := by
  obtain ⟨t, split⟩ := suffix
  rcases List.append_eq_append_iff.mp split with ⟨a', -, rfl⟩ | ⟨c', -, rest⟩
  · simp at notIn
  · rcases List.cons_eq_append_iff.mp rest with ⟨-, rfl⟩ | ⟨a', -, rfl⟩
    · simp at notIn
    · exact ⟨a', rfl⟩

/-- Before the `@` that follows `X`, the digest marker can only occur inside
`X`: the marker holds `@` only at its start. -/
theorem not_prefix_before_at {X D : List Char} (inX : ¬ "@sha256:".data <:+: X) :
    ∀ j < X.length, ¬ "@sha256:".data <+: (X ++ '@' :: D).drop j := by
  intro j lt start
  rw [List.drop_append_of_le_length lt.le] at start
  obtain ⟨x, rest, split⟩ := List.exists_cons_of_ne_nil (by simp; omega : X.drop j ≠ [])
  rw [split, List.cons_append] at start
  obtain ⟨t, same, tail⟩ := (List.prefix_cons_iff.mp start).resolve_left (by decide)
  obtain ⟨rfl, rfl⟩ := List.cons.inj same
  have inside : "sha256:".data <+: rest := prefix_of_prefix_append_cons tail (by decide)
  have suffix : '@' :: rest <:+ X := split ▸ List.drop_suffix j X
  exact inX (((List.prefix_cons_inj '@').mpr inside).isInfix.trans suffix.isInfix)

/-- After `X`, a `:` and a tag without `:`, the digest marker occurs only if it
occurs in `X` or `X` ends in `@sha256`. -/
theorem not_infix_append_colon {X tag : List Char} (inX : ¬ "@sha256:".data <:+: X)
    (ends : ¬ "@sha256".data <:+ X) (noColon : ':' ∉ tag) :
    ¬ "@sha256:".data <:+: X ++ ':' :: tag := by
  rintro ⟨a, b, occurs⟩
  have split : (a ++ "@sha256".data) ++ ':' :: b = X ++ ':' :: tag := by
    rw [← occurs]
    simp only [List.append_assoc]
    rfl
  rcases List.append_eq_append_iff.mp split with ⟨a', rfl, rest⟩ | ⟨c', same, rest⟩
  · rcases List.cons_eq_append_iff.mp rest with ⟨rfl, -⟩ | ⟨a'', rfl, -⟩
    · exact ends ⟨a, by simp⟩
    · exact inX ⟨a, a'', by simp only [List.append_assoc]; rfl⟩
  · rcases List.cons_eq_append_iff.mp rest with ⟨rfl, -⟩ | ⟨a'', rfl, tagEq⟩
    · exact ends ⟨a, by simpa using same⟩
    · exact noColon (by rw [tagEq]; simp)

end Marker

/-! ## The steps of `ParseOCIRef` -/

section Steps

theorem splitDigest_spec {ref digest ref' : List Char} (split : splitDigest ref = (digest, ref')) :
    ¬ "@sha256:".data <:+: ref' ∧
      ((digest = [] ∧ ref' = ref) ∨ (ref = ref' ++ '@' :: digest ∧ "sha256:".data <+: digest)) := by
  unfold splitDigest at split
  cases found : index "@sha256:".data ref with
  | none =>
      rw [found] at split
      obtain ⟨rfl, rfl⟩ := Prod.mk.inj split
      exact ⟨index_eq_none_iff.mp found, .inl ⟨rfl, rfl⟩⟩
  | some idx =>
      rw [found] at split
      obtain ⟨rfl, rfl⟩ := Prod.mk.inj split
      obtain ⟨⟨t, marked⟩, before⟩ := index_eq_some (by decide) found
      have rest : ref.drop (idx + 1) = "sha256:".data ++ t := by
        rw [← List.tail_drop, ← marked]
        rfl
      refine ⟨before, .inr ⟨?_, rest ▸ List.prefix_append _ _⟩⟩
      calc ref = ref.take idx ++ ref.drop idx := (List.take_append_drop idx ref).symm
        _ = ref.take idx ++ '@' :: ref.drop (idx + 1) := by rw [rest, ← marked]; rfl

theorem splitDigest_of_not_infix {ref : List Char} (unmarked : ¬ "@sha256:".data <:+: ref) :
    splitDigest ref = ([], ref) := by
  simp [splitDigest, index_eq_none_iff.mpr unmarked]

theorem splitDigest_append {X D : List Char} (inX : ¬ "@sha256:".data <:+: X)
    (marked : "sha256:".data <+: D) : splitDigest (X ++ '@' :: D) = (D, X) := by
  have found : index "@sha256:".data (X ++ '@' :: D) = some X.length :=
    index_append ((List.prefix_cons_inj '@').mpr marked) (not_prefix_before_at inX)
  simp [splitDigest, found]

theorem splitTag_spec {last tag last' : List Char} (split : splitTag last = (tag, last')) :
    (tag = [] ∧ last' = last ∧ ':' ∉ last) ∨ (last = last' ++ ':' :: tag ∧ ':' ∉ tag) := by
  unfold splitTag at split
  cases found : lastIndex ':' last with
  | none =>
      rw [found] at split
      obtain ⟨rfl, rfl⟩ := Prod.mk.inj split
      exact .inl ⟨rfl, rfl, lastIndex_eq_none_iff.mp found⟩
  | some idx =>
      rw [found] at split
      obtain ⟨rfl, rfl⟩ := Prod.mk.inj split
      exact .inr (lastIndex_eq_some found)

theorem splitTag_of_not_mem {last : List Char} (noColon : ':' ∉ last) : splitTag last = ([], last) := by
  simp [splitTag, lastIndex_eq_none_iff.mpr noColon]

theorem splitTag_append {last tag : List Char} (noColon : ':' ∉ tag) :
    splitTag (last ++ ':' :: tag) = (tag, last) := by
  simp [splitTag, lastIndex_append noColon]

/-- No part of a split holds the separator. -/
theorem exists_parts {parts : List (List Char)} (two : ¬ parts.length < 2) :
    ∃ registry init last, parts = registry :: init ++ [last] := by
  cases parts with
  | nil => simp at two
  | cons registry rest =>
      have nonempty : rest ≠ [] := by rintro rfl; simp at two
      exact ⟨registry, rest.dropLast, rest.getLast nonempty, by simp [List.dropLast_append_getLast]⟩

end Steps

/-! ## What `ParseOCIRef` returns -/

/-- `ParseOCIRef` accepts a reference as a registry, the path parts before the
last, and the last part without its tag, none of them holding `/` and no digest
marker among them, with a tag free of `:` and `/` when there is no digest. -/
theorem parseOCIRef_eq_ok {s : String} {r : OCIRef} (parsed : parseOCIRef s = .ok r) :
    ∃ registry init last,
      r.registry.data = registry ∧ r.path.data = ['/'].intercalate (init ++ [last]) ∧
      (∀ piece ∈ registry :: init ++ [last], '/' ∉ piece) ∧
      ¬ "@sha256:".data <:+: ['/'].intercalate (registry :: init ++ [last]) ∧
      (r.digest = "" → r.tag.data ≠ [] ∧ ':' ∉ r.tag.data ∧ '/' ∉ r.tag.data) ∧
      (r.digest ≠ "" → "sha256:".data <+: r.digest.data) := by
  unfold parseOCIRef at parsed
  generalize "oci://".data = scheme at parsed
  generalize trimPrefixOf scheme s.data = trimmed at parsed
  dsimp only at parsed
  by_cases empty : trimmed = []
  · rw [if_pos empty] at parsed
    cases parsed
  rw [if_neg empty] at parsed
  rcases digestEq : splitDigest trimmed with ⟨digest, ref⟩
  obtain ⟨unmarked, digestCases⟩ := splitDigest_spec digestEq
  rw [digestEq] at parsed
  dsimp only at parsed
  by_cases few : (ref.splitOn '/').length < 2
  · rw [if_pos few] at parsed
    cases parsed
  rw [if_neg few] at parsed
  obtain ⟨registry, init, lastRaw, partsEq⟩ := exists_parts few
  have pieces : ∀ piece ∈ registry :: init ++ [lastRaw], '/' ∉ piece := fun piece mem =>
    not_mem_of_mem_splitOn (partsEq ▸ mem)
  have refEq : ref = ['/'].intercalate (registry :: init ++ [lastRaw]) := by
    rw [← partsEq, List.intercalate_splitOn]
  rcases tagEq : splitTag lastRaw with ⟨tag, last⟩
  rw [partsEq, List.getLast?_concat, Option.getD_some, tagEq, List.dropLast_concat] at parsed
  cases parsed
  have lastCases := splitTag_spec tagEq
  have rawSlash : '/' ∉ lastRaw := pieces lastRaw (by simp)
  have lastSlash : '/' ∉ last := by
    rcases lastCases with ⟨-, rfl, -⟩ | ⟨rfl, -⟩
    · exact rawSlash
    · exact fun mem => rawSlash (List.mem_append_left _ mem)
  refine ⟨registry, init, last, rfl, rfl, fun piece mem => ?_, fun occurs => ?_, fun noDigest => ?_,
    fun digested => ?_⟩
  · rcases List.mem_append.mp mem with early | final
    · exact pieces piece (List.mem_append_left _ early)
    · rw [List.mem_singleton.mp final]
      exact lastSlash
  · apply unmarked
    refine occurs.trans (List.IsPrefix.isInfix ?_)
    rw [refEq, intercalate_concat _ (List.cons_ne_nil _ _), intercalate_concat _ (List.cons_ne_nil _ _)]
    rcases lastCases with ⟨-, rfl, -⟩ | ⟨rfl, -⟩
    · exact List.prefix_refl _
    · exact ⟨':' :: tag, by simp⟩
  · have noDigest : digest = [] := congrArg String.data noDigest
    subst noDigest
    by_cases untagged : tag = []
    · simp only [untagged, and_self, if_true]
      decide
    · simp only [untagged, false_and, if_false]
      rcases lastCases with ⟨tagNil, -, -⟩ | ⟨rfl, tagColon⟩
      · exact absurd tagNil untagged
      · exact ⟨untagged, tagColon, fun mem => rawSlash (by simp [mem])⟩
  · rcases digestCases with ⟨rfl, -⟩ | ⟨-, marked⟩
    · exact absurd rfl digested
    · exact marked

/-! ## Parsing a printed reference -/

section Printed

variable {registry last : List Char} {init : List (List Char)}

theorem splitOn_joined (noSlash : ∀ piece ∈ registry :: init ++ [last], '/' ∉ piece)
    (rest : List Char) (restSlash : '/' ∉ rest) :
    (['/'].intercalate (registry :: init ++ [last]) ++ rest).splitOn '/' =
      registry :: init ++ [last ++ rest] := by
  rw [intercalate_concat _ (List.cons_ne_nil _ _), List.append_assoc, List.cons_append,
    ← intercalate_concat _ (List.cons_ne_nil _ _)]
  apply List.splitOn_intercalate
  · intro piece mem
    rcases List.mem_append.mp mem with early | final
    · exact noSlash piece (List.mem_append_left _ early)
    · rw [List.mem_singleton.mp final, List.mem_append, not_or]
      exact ⟨noSlash last (by simp), restSlash⟩
  · simp

theorem parseOCIRef_tagged {tag : List Char}
    (noSlash : ∀ piece ∈ registry :: init ++ [last], '/' ∉ piece) (tagged : tag ≠ [])
    (tagColon : ':' ∉ tag) (tagSlash : '/' ∉ tag)
    (unmarked : ¬ "@sha256:".data <:+: ['/'].intercalate (registry :: init ++ [last]) ++ ':' :: tag) :
    parseOCIRef ⟨"oci://".data ++ (['/'].intercalate (registry :: init ++ [last]) ++ ':' :: tag)⟩ =
      .ok ⟨⟨registry⟩, ⟨['/'].intercalate (init ++ [last])⟩, ⟨tag⟩, ""⟩ := by
  have parts := splitOn_joined noSlash (':' :: tag) (by simpa using tagSlash)
  unfold parseOCIRef
  rw [trimPrefixOf_append]
  simp only [parts, splitDigest_of_not_infix unmarked,
    List.getLast?_concat, Option.getD_some, splitTag_append tagColon, List.dropLast_concat]
  rw [if_neg (by simp), if_neg (by simp)]
  simp only [List.cons_append, List.headD_cons, List.tail_cons, tagged, false_and, if_false]

theorem parseOCIRef_digested {digest : List Char}
    (noSlash : ∀ piece ∈ registry :: init ++ [last], '/' ∉ piece) (lastColon : ':' ∉ last)
    (marked : "sha256:".data <+: digest)
    (unmarked : ¬ "@sha256:".data <:+: ['/'].intercalate (registry :: init ++ [last])) :
    parseOCIRef ⟨"oci://".data ++ (['/'].intercalate (registry :: init ++ [last]) ++ '@' :: digest)⟩ =
      .ok ⟨⟨registry⟩, ⟨['/'].intercalate (init ++ [last])⟩, "", ⟨digest⟩⟩ := by
  have parts := splitOn_joined noSlash [] (List.not_mem_nil _)
  simp only [List.append_nil] at parts
  have digested : digest ≠ [] := by
    rintro rfl
    simp at marked
  unfold parseOCIRef
  rw [trimPrefixOf_append]
  simp only [splitDigest_append unmarked marked, parts,
    List.getLast?_concat, Option.getD_some, splitTag_of_not_mem lastColon, List.dropLast_concat]
  rw [if_neg (by simp), if_neg (by simp)]
  simp only [List.cons_append, List.headD_cons, List.tail_cons, digested, and_false, if_false]

end Printed

/-! ## The round trip -/

/-- The text after the last `/` of a path. -/
def lastSegment (path : List Char) : List Char :=
  (path.reverse.takeWhile (· ≠ '/')).reverse

theorem lastSegment_intercalate {last : List Char} (noSlash : '/' ∉ last) :
    ∀ init : List (List Char), lastSegment (['/'].intercalate (init ++ [last])) = last := by
  have kept : ∀ c ∈ last.reverse, decide (c ≠ '/') = true := by
    intro c mem
    simp only [decide_eq_true_eq]
    rintro rfl
    exact noSlash (List.mem_reverse.mp mem)
  intro init
  cases init with
  | nil =>
      rw [lastSegment, List.nil_append, show ['/'].intercalate [last] = last by simp [List.intercalate],
        ← List.append_nil last.reverse, List.takeWhile_append_of_pos kept]
      simp
  | cons a rest =>
      rw [intercalate_concat _ (List.cons_ne_nil _ _), lastSegment, List.reverse_append,
        List.reverse_cons, List.append_assoc, List.takeWhile_append_of_pos kept]
      simp

/-- The references that print and parse back to themselves: without a digest,
those whose path does not end in `@sha256`; with one, those without a tag and
without a `:` after the last `/` of the path. -/
def PrintsBack (r : OCIRef) : Prop :=
  (r.digest = "" ∧ ¬ "@sha256".data <:+ r.path.data) ∨
    (r.digest ≠ "" ∧ r.tag = "" ∧ ':' ∉ lastSegment r.path.data)

instance (r : OCIRef) : Decidable (PrintsBack r) :=
  inferInstanceAs (Decidable ((r.digest = "" ∧ ¬ "@sha256".data <:+ r.path.data) ∨
    (r.digest ≠ "" ∧ r.tag = "" ∧ ':' ∉ lastSegment r.path.data)))

theorem toString_data (r : OCIRef) :
    r.toString.data = "oci://".data ++ (r.registry.data ++ '/' :: r.path.data ++
      if r.digest ≠ "" then '@' :: r.digest.data else if r.tag ≠ "" then ':' :: r.tag.data else []) := by
  unfold OCIRef.toString
  split_ifs <;> simp

theorem OCIRef.eq_of_data {r : OCIRef} {registry path tag digest : List Char}
    (registryEq : r.registry.data = registry) (pathEq : r.path.data = path)
    (tagEq : r.tag.data = tag) (digestEq : r.digest.data = digest) :
    (⟨⟨registry⟩, ⟨path⟩, ⟨tag⟩, ⟨digest⟩⟩ : OCIRef) = r := by
  subst registryEq pathEq tagEq digestEq
  rfl

theorem ociRef_round_trip {s : String} {r : OCIRef} (parsed : parseOCIRef s = .ok r)
    (printsBack : PrintsBack r) : parseOCIRef r.toString = .ok r := by
  obtain ⟨registry, init, last, registryEq, pathEq, noSlash, unmarked, tagFacts, digestFacts⟩ :=
    parseOCIRef_eq_ok parsed
  have joined : ['/'].intercalate (registry :: init ++ [last]) = r.registry.data ++ '/' :: r.path.data := by
    rw [registryEq, pathEq, List.cons_append, intercalate_cons_of_ne_nil _ (by simp)]
  have printed : r.toString = ⟨r.toString.data⟩ := rfl
  rw [printed, toString_data, ← joined]
  rcases printsBack with ⟨noDigest, notEnds⟩ | ⟨digested, untagged, lastColon⟩
  · obtain ⟨tagged, tagColon, tagSlash⟩ := tagFacts noDigest
    have ends : ¬ "@sha256".data <:+ ['/'].intercalate (registry :: init ++ [last]) := fun suffix =>
      notEnds (suffix_of_suffix_append_cons (joined ▸ suffix) (by decide))
    have tagString : r.tag ≠ "" := fun empty => tagged (congrArg String.data empty)
    rw [if_neg (not_not.mpr noDigest), if_pos tagString,
      parseOCIRef_tagged noSlash tagged tagColon tagSlash (not_infix_append_colon unmarked ends tagColon)]
    exact congrArg Except.ok (OCIRef.eq_of_data registryEq pathEq rfl (congrArg String.data noDigest))
  · have lastNoColon : ':' ∉ last := by
      rwa [pathEq, lastSegment_intercalate (noSlash last (by simp))] at lastColon
    rw [if_pos digested, parseOCIRef_digested noSlash lastNoColon (digestFacts digested) unmarked]
    exact congrArg Except.ok (OCIRef.eq_of_data registryEq pathEq (congrArg String.data untagged) rfl)

theorem cluster_health_ref_prints_back :
    parseOCIRef "oci://ghcr.io/legator-skills/cluster-health:v1.0" =
        .ok ⟨"ghcr.io", "legator-skills/cluster-health", "v1.0", ""⟩ ∧
      PrintsBack ⟨"ghcr.io", "legator-skills/cluster-health", "v1.0", ""⟩ ∧
      parseOCIRef (OCIRef.toString ⟨"ghcr.io", "legator-skills/cluster-health", "v1.0", ""⟩) =
        .ok ⟨"ghcr.io", "legator-skills/cluster-health", "v1.0", ""⟩ :=
  have parsed : parseOCIRef "oci://ghcr.io/legator-skills/cluster-health:v1.0" =
      .ok ⟨"ghcr.io", "legator-skills/cluster-health", "v1.0", ""⟩ := rfl
  ⟨parsed, by decide, ociRef_round_trip parsed (by decide)⟩

/-! ## Two references that do not come back -/

theorem tagged_or_marked_refs_change :
    (¬ ∀ s r, parseOCIRef s = .ok r → parseOCIRef r.toString = .ok r) ∧
      ¬ ∀ s r, parseOCIRef s = .ok r → r.digest = "" → parseOCIRef r.toString = .ok r := by
  constructor
  · intro roundTrip
    have tagged := roundTrip "oci://reg/name:v1@sha256:abc" ⟨"reg", "name", "v1", "sha256:abc"⟩ rfl
    have reparsed : parseOCIRef (OCIRef.toString ⟨"reg", "name", "v1", "sha256:abc"⟩) =
        .ok ⟨"reg", "name", "", "sha256:abc"⟩ := rfl
    rw [reparsed] at tagged
    exact absurd (Except.ok.inj tagged) (by decide)
  · intro roundTrip
    have marked := roundTrip "oci://reg/name@sha256" ⟨"reg", "name@sha256", "latest", ""⟩ rfl rfl
    have reparsed : parseOCIRef (OCIRef.toString ⟨"reg", "name@sha256", "latest", ""⟩) =
        .ok ⟨"reg", "name", "", "sha256:latest"⟩ := rfl
    rw [reparsed] at marked
    exact absurd (Except.ok.inj marked) (by decide)

end Legator.Skills

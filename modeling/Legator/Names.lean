import Mathlib.Data.List.Basic

/-!
# Kubernetes object names

Namespaces and object names are DNS labels and subdomains, so neither holds a
`/`. The controller builds map keys by joining them with `/`, and such a key
splits back at its separators; the lemma below is that fact, once.
-/

namespace Legator

/-- `types.NamespacedName`. Kubernetes namespaces and names hold no `/`, and the
fields say so. -/
structure NamespacedName where
  «namespace» : String
  name : String
  namespaceNoSlash : '/' ∉ «namespace».data
  nameNoSlash : '/' ∉ name.data
  deriving DecidableEq

/-- Splitting at the first occurrence of a separator that neither left part
contains. -/
theorem append_cons_inj_of_not_mem {sep : Char} :
    ∀ {left right left' right' : List Char}, sep ∉ left → sep ∉ left' →
      left ++ sep :: right = left' ++ sep :: right' → left = left' ∧ right = right'
  | [], right, [], right', _, _, joined => ⟨rfl, by simpa using joined⟩
  | [], _, c :: _, _, _, absent', joined => by
      simp only [List.nil_append, List.cons_append, List.cons.injEq] at joined
      exact absurd (joined.1 ▸ List.mem_cons_self _ _) absent'
  | c :: _, _, [], _, absent, _, joined => by
      simp only [List.nil_append, List.cons_append, List.cons.injEq] at joined
      exact absurd (joined.1 ▸ List.mem_cons_self _ _) absent
  | c :: left, right, c' :: left', right', absent, absent', joined => by
      simp only [List.cons_append, List.cons.injEq] at joined
      obtain ⟨same, rest⟩ :=
        append_cons_inj_of_not_mem (List.not_mem_of_not_mem_cons absent)
          (List.not_mem_of_not_mem_cons absent') joined.2
      exact ⟨by rw [joined.1, same], rest⟩

end Legator

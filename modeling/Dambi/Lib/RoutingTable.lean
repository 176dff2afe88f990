import Mathlib.Data.List.Pairwise

/-!
# Routing tables

A table leads from keys to owners. An owner is assigned a list of keys at once,
over whatever the keys led to before, so an owner that is assigned a second list
still has the keys of the first.
-/

namespace RoutingTable

variable {K O : Type} [DecidableEq K]

def assign (table : K → Option O) (keys : List K) (owner : O) : K → Option O :=
  keys.foldl (fun t key => Function.update t key (some owner)) table

theorem assign_apply (t : K → Option O) (keys : List K) (owner : O) (key : K) :
    assign t keys owner key = if key ∈ keys then some owner else t key := by
  induction keys generalizing t with
  | nil => rfl
  | cons k keys ih =>
    change assign (Function.update t k (some owner)) keys owner key = _
    rw [ih]
    by_cases hm : key ∈ keys
    · rw [if_pos hm, if_pos (List.mem_cons_of_mem k hm)]
    · rw [if_neg hm]
      by_cases hk : key = k
      · rw [hk, Function.update_self, if_pos List.mem_cons_self]
      · rw [Function.update_of_ne hk, if_neg fun h => (List.mem_cons.1 h).elim hk hm]

/-- An assignment that replaces what an owner declares keeps the table true to the declarations
exactly if the owner declares again every key it has. -/
theorem assign_declared_iff {t : K → Option O} {keys : List K} {d d' : O → K → Prop} {owner : O}
    (ht : ∀ key o, t key = some o → d o key) (how : ∀ key, d' owner key ↔ key ∈ keys)
    (hot : ∀ o key, o ≠ owner → (d' o key ↔ d o key)) :
    (∀ key o, assign t keys owner key = some o → d' o key) ↔
      ∀ key, t key = some owner → key ∈ keys := by
  simp only [assign_apply]
  constructor
  · intro ha key hk
    by_contra hm
    exact hm ((how key).1 (ha key owner (by rw [if_neg hm, hk])))
  · intro hke key o ho
    split at ho
    · rename_i hm
      cases ho
      exact (how key).2 hm
    · by_cases heq : o = owner
      · subst heq
        exact (how key).2 (hke key ho)
      · exact (hot o key heq).2 (ht key o ho)

end RoutingTable

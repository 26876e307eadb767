/-
Multistage.Proofs.Named — looking up names.

A name is found under every value that is the same name, and being the same name is an
equivalence.  So a list made of pairs answers for a name with the last value that was put
under it, which is no matter where all pairs of one name agree (`get?_ofPairs_map`).
-/
import Multistage.Named

namespace Multistage

/-! ## The same name -/

namespace Value

theorem isSame_iff {a b : Value} : a.isSame b = true ↔ a.nominal = b.nominal := beq_iff_eq

@[simp] theorem isSame_refl (a : Value) : a.isSame a = true := isSame_iff.mpr rfl

theorem isSame_comm (a b : Value) : a.isSame b = b.isSame a := by
  rw [Bool.eq_iff_iff, isSame_iff, isSame_iff, eq_comm]

/-- What is the same name as another is so to all others. -/
theorem isSame_congr {a b : Value} (h : a.isSame b = true) (c : Value) :
    a.isSame c = b.isSame c := by
  rw [Bool.eq_iff_iff, isSame_iff, isSame_iff, isSame_iff.mp h]

/-- A text is the same name as no other value. -/
theorem isSame_string {s : String} {v : Value} :
    (Value.string s).isSame v = true ↔ v = .string s := by
  rw [isSame_iff]
  constructor
  · intro h
    cases v with
    | string s' => exact h.symm
    | float x =>
      simp only [nominal] at h
      split at h
      · split at h <;> cases h
      · cases h
    | null | bool _ | int _ | list _ | record _ => cases h
  · rintro rfl
    rfl

end Value

/-! ## Lookups -/

namespace Named

variable {β : Type}

theorem get?_put (xs : Named β) (name name' : Value) (b : β) :
    (xs.put name b).get? name' = if name.isSame name' then some b else xs.get? name' := by
  induction xs with
  | nil =>
    by_cases h : name.isSame name' = true <;> simp [put, get?, h]
  | cons e xs ih =>
    obtain ⟨k, c⟩ := e
    by_cases hk : k.isSame name = true
    · rw [put, if_pos hk, ← Value.isSame_congr hk]
      by_cases h : k.isSame name' = true <;> simp [get?, h]
    · rw [put, if_neg hk]
      by_cases h : k.isSame name' = true
      · have hname : name.isSame name' = false := by
          rw [Value.isSame_comm, ← Value.isSame_congr h, Bool.eq_false_iff]
          exact hk
        simp [get?, h, hname]
      · simp only [get?, List.find?_cons, h] at ih ⊢
        exact ih

@[simp] theorem get?_put_self (xs : Named β) (name : Value) (b : β) :
    (xs.put name b).get? name = some b := by
  rw [get?_put, if_pos (Value.isSame_refl name)]

theorem get?_update_map {f : Value → β}
    (hf : ∀ k k' : Value, k.isSame k' = true → f k = f k') (keys : List Value) (name : Value) :
    ∀ xs : Named β, (xs.update (keys.map fun k => (k, f k))).get? name
      = if keys.any (·.isSame name) then some (f name) else xs.get? name := by
  induction keys with
  | nil => exact fun _ => rfl
  | cons k keys ih =>
    intro xs
    show ((xs.put k (f k)).update (keys.map fun k => (k, f k))).get? name = _
    rw [ih, get?_put, List.any_cons]
    by_cases hk : k.isSame name = true
    · rw [hk, hf k name hk]
      simp
    · simp [hk]

/-- Pairs of which all of one name agree answer for every name among them. -/
theorem get?_ofPairs_map {f : Value → β}
    (hf : ∀ k k' : Value, k.isSame k' = true → f k = f k') (keys : List Value) (name : Value) :
    (ofPairs (keys.map fun k => (k, f k))).get? name
      = if keys.any (·.isSame name) then some (f name) else none :=
  get?_update_map hf keys name []

/-! ## Lists by names -/

/-- Some names and a further one, unless it is among them. -/
def withName (names : List Value) (k : Value) : List Value :=
  if names.any (·.isSame k) then names else names ++ [k]

/-- A value is put under its name, where there are values of all names. -/
theorem put_map {f : Value → β} (hf : ∀ k k' : Value, k.isSame k' = true → f k = f k')
    (names : List Value) (k : Value) :
    put (names.map fun k => (k, f k)) k (f k) = (withName names k).map fun k => (k, f k) := by
  unfold withName
  induction names with
  | nil => rfl
  | cons k' names ih =>
    rw [List.map_cons, put, List.any_cons]
    by_cases h : k'.isSame k = true
    · simp [h, hf k' k h]
    · by_cases hany : names.any (·.isSame k) = true
      · rw [if_pos hany] at ih
        simp [h, hany, ih]
      · rw [if_neg hany] at ih
        simp [h, hany, ih]

/-- Pairs of which all of one name agree make up the list of their names, as these came up
first, each with what the pairs of the name have in common. -/
theorem ofPairs_map {f : Value → β} (hf : ∀ k k' : Value, k.isSame k' = true → f k = f k')
    (keys : List Value) :
    ofPairs (keys.map fun k => (k, f k)) = (keys.foldl withName []).map fun k => (k, f k) := by
  have hupdate : ∀ names : List Value, update (names.map fun k => (k, f k))
      (keys.map fun k => (k, f k)) = (keys.foldl withName names).map fun k => (k, f k) := by
    induction keys with
    | nil => exact fun _ => rfl
    | cons k keys ih =>
      intro names
      show update (put (names.map fun k => (k, f k)) k (f k)) _ = _
      rw [put_map hf, ih]
      rfl
  exact hupdate []

/-! ## Lists without repeated names -/

theorem put_of_new {xs : Named β} {k : Value} (b : β) (h : ∀ e ∈ xs, e.1.isSame k = false) :
    xs.put k b = xs ++ [(k, b)] := by
  induction xs with
  | nil => rfl
  | cons e xs ih =>
    obtain ⟨hne, hrest⟩ := List.forall_mem_cons.mp h
    rw [put, if_neg (by simp [hne]), ih hrest, List.cons_append]

/-- Pairs of which no two have one name are the list of these pairs. -/
theorem ofPairs_eq_self {pairs : Named β}
    (h : (pairs.map Prod.fst).Pairwise fun k k' => k.isSame k' = false) :
    ofPairs pairs = pairs := by
  have hupdate : ∀ xs : Named β,
      ((xs ++ pairs).map Prod.fst).Pairwise (fun k k' => k.isSame k' = false) →
        xs.update pairs = xs ++ pairs := by
    clear h
    induction pairs with
    | nil => exact fun xs _ => (List.append_nil xs).symm
    | cons e pairs ih =>
      intro xs h
      have hnew : ∀ e' ∈ xs, e'.1.isSame e.1 = false := by
        intro e' he'
        rw [List.map_append, List.pairwise_append] at h
        exact h.2.2 _ (List.mem_map_of_mem he') _ (List.mem_cons_self ..)
      show (xs.put e.1 e.2).update pairs = _
      rw [put_of_new e.2 hnew, ih, List.append_assoc, List.singleton_append]
      rwa [List.append_assoc, List.singleton_append]
  exact hupdate [] h

/-! ## Keys -/

theorem mem_keys_put {xs : Named β} {name k : Value} {b : β}
    (h : k ∈ (xs.put name b).map Prod.fst) : k ∈ xs.map Prod.fst ∨ k = name := by
  induction xs with
  | nil => exact .inr (List.mem_singleton.mp h)
  | cons e xs ih =>
    obtain ⟨k', c⟩ := e
    by_cases hk : k'.isSame name = true
    · rw [put, if_pos hk] at h
      exact .inl h
    · rw [put, if_neg hk, List.map_cons, List.mem_cons] at h
      rcases h with rfl | h
      · exact .inl (by simp)
      · exact (ih h).imp_left (List.mem_cons_of_mem _)

/-- No name comes up that was not among the pairs. -/
theorem mem_keys_update {pairs : Named β} {k : Value} : ∀ {xs : Named β},
    k ∈ (xs.update pairs).map Prod.fst → k ∈ xs.map Prod.fst ∨ k ∈ pairs.map Prod.fst := by
  induction pairs with
  | nil => exact fun h => .inl h
  | cons e pairs ih =>
    obtain ⟨k', b⟩ := e
    intro xs h
    have h' : k ∈ ((xs.put k' b).update pairs).map Prod.fst := h
    rcases ih h' with h | h
    · rcases mem_keys_put h with h | rfl
      · exact .inl h
      · exact .inr (by simp)
    · exact .inr (List.mem_cons_of_mem _ h)

theorem mem_keys_ofPairs_map {f : Value → β} {keys : List Value} {k : Value}
    (h : k ∈ (ofPairs (keys.map fun k => (k, f k))).map Prod.fst) : k ∈ keys := by
  have hpairs := (mem_keys_update h).resolve_left List.not_mem_nil
  rw [List.map_map] at hpairs
  obtain ⟨k', hk', rfl⟩ := List.mem_map.mp hpairs
  exact hk'

end Named

end Multistage

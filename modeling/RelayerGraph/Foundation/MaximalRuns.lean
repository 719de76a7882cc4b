import RelayerGraph.Foundation.Keyed

/-!
# Runs that come to an end

A measure that every step lowers bounds the runs from a state.  The measures
of a table add up what its rows weigh.
-/

namespace Foundation

universe u v

/-- Steps that keep a property and lower a measure while it holds run no longer
than the measure tells. -/
theorem length_add_le_of_foldlM {σ : Type u} {ℓ : Type v}
    {next : σ → ℓ → Option σ} {P : σ → Prop} {work : σ → ℕ}
    (hstep : ∀ s l t, P s → next s l = some t → P t ∧ work t < work s)
    {labels : List ℓ} {s t : σ} (hs : P s)
    (hrun : labels.foldlM next s = some t) :
    P t ∧ labels.length + work t ≤ work s := by
  induction labels generalizing s with
  | nil =>
      obtain rfl : s = t := by simpa using hrun
      exact ⟨hs, by simp⟩
  | cons label labels ih =>
      obtain ⟨middle, hlabel, hrest⟩ : ∃ middle,
          next s label = some middle ∧ labels.foldlM next middle = some t := by
        simpa [List.foldlM_cons, Option.bind_eq_some_iff] using hrun
      obtain ⟨hmiddle, hless⟩ := hstep s label middle hs hlabel
      obtain ⟨ht, hle⟩ := ih hmiddle hrest
      refine ⟨ht, ?_⟩
      rw [List.length_cons]
      omega

namespace Keyed

variable {κ : Type u} {ρ : Type v}

/-- What the rows of a table weigh together. -/
def total (T : Keyed κ ρ) (weight : ρ → ℕ) : ℕ :=
  (T.rows.map fun entry => weight entry.2).sum

variable [DecidableEq κ]

theorem total_of_get? {T : Keyed κ ρ} {k : κ} {row : ρ} (weight : ρ → ℕ)
    (h : T.get? k = some row) :
    T.total weight = weight row + (T.erase k).total weight := by
  unfold total
  rw [((rows_perm_erase h).map _).sum_eq, List.map_cons, List.sum_cons]

theorem total_put (T : Keyed κ ρ) (k : κ) (row : ρ) (weight : ρ → ℕ) :
    (T.put k row).total weight = weight row + (T.erase k).total weight := by
  unfold total
  rw [((rows_put_perm T k row).map _).sum_eq, List.map_cons, List.sum_cons]

/-- A lighter row makes the table lighter. -/
theorem total_put_lt {T : Keyed κ ρ} {k : κ} {old row : ρ} {weight : ρ → ℕ}
    (h : T.get? k = some old) (hless : weight row < weight old) :
    (T.put k row).total weight < T.total weight := by
  rw [total_put, total_of_get? weight h]
  omega

theorem mapRows_eq_put {T : Keyed κ ρ} {k : κ} {old : ρ} (f : ρ → ρ)
    (h : T.get? k = some old) :
    (T.mapRows fun key row => if key = k then f row else row) =
      T.put k (f old) := by
  apply eq_of_rows
  rw [rows_put_of_some (f old) h]
  apply List.map_congr_left
  rintro ⟨key, row⟩ hmem
  by_cases hkey : key = k
  · subst hkey
    obtain rfl : row = old := by simpa [get?_of_mem_rows hmem] using h
    simp
  · simp [hkey]

end Keyed

end Foundation

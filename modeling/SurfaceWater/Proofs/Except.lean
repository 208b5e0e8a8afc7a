/-!
# Computations that can fail

When a chain of steps succeeds, and when the same step succeeds for every item of a list.
-/

namespace SurfaceWater

variable {α β ε : Type}

theorem toOption_eq_some_iff {x : Except ε α} {a : α} : x.toOption = some a ↔ x = .ok a := by
  cases x <;> simp [Except.toOption]

theorem bind_eq_ok_iff {x : Except ε α} {f : α → Except ε β} {b : β} :
    (x >>= f) = .ok b ↔ ∃ a, x = .ok a ∧ f a = .ok b := by
  cases x with
  | error e =>
    constructor
    · intro h
      cases h
    · intro h
      obtain ⟨a, h, -⟩ := h
      cases h
  | ok a =>
    constructor
    · intro h
      exact ⟨a, rfl, h⟩
    · intro h
      obtain ⟨a', ha, h⟩ := h
      cases ha
      exact h

theorem exists_eq_ok_iff {x : Except ε α} : (∃ a, x = .ok a) ↔ ∀ e, x ≠ .error e := by
  cases x <;> simp

/-- Of two steps the first fails, or the second one does with what the first gave. -/
theorem bind_eq_error_iff {x : Except ε α} {f : α → Except ε β} {e : ε} :
    (x >>= f) = .error e ↔ x = .error e ∨ ∃ a, x = .ok a ∧ f a = .error e := by
  cases x with
  | error other =>
    simp only [reduceCtorEq, false_and, exists_false, or_false, Except.error.injEq]
    exact ⟨Except.error.inj, congrArg Except.error⟩
  | ok a => simp only [reduceCtorEq, false_or, Except.ok.injEq, exists_eq_left']; rfl

theorem pure_eq_ok_iff {a b : α} : (pure a : Except ε α) = .ok b ↔ a = b := Except.ok.injEq a b ▸ Iff.rfl

theorem bind_pure_eq_error_iff {x : Except ε α} {f : α → β} {e : ε} :
    (x >>= fun a => pure (f a)) = .error e ↔ x = .error e := by
  rw [bind_eq_error_iff]
  exact or_iff_left fun h => by obtain ⟨a, -, hpure⟩ := h; cases hpure

/-- A check that throws lets the rest run exactly when its condition does not hold. -/
theorem guard_eq_ok_iff {c : Prop} [Decidable c] {e : ε} {rest : PUnit → Except ε β} {b : β} :
    (if c then (throw e >>= rest) else rest ⟨⟩) = .ok b ↔ ¬ c ∧ rest ⟨⟩ = .ok b := by
  by_cases h : c
  · rw [if_pos h]
    constructor
    · intro hthrow
      cases hthrow
    · intro h
      obtain ⟨hnot, -⟩ := h
      exact absurd h hnot
  · rw [if_neg h]
    exact ⟨fun hrest => ⟨h, hrest⟩, And.right⟩

/-- A check that throws fails with its own error, or lets the rest fail. -/
theorem guard_eq_error_iff {c : Prop} [Decidable c] {e other : ε} {rest : PUnit → Except ε β} :
    (if c then (throw e >>= rest) else rest ⟨⟩) = .error other ↔ (c ∧ e = other) ∨ (¬ c ∧ rest ⟨⟩ = .error other) := by
  by_cases h : c
  · rw [if_pos h]
    simp only [h, true_and, not_true_eq_false, false_and, or_false]
    exact ⟨Except.error.inj, congrArg Except.error⟩
  · simp [h]

/-- The same for a check of what may be missing. -/
theorem guard_eq_some_iff {c : Prop} [Decidable c] {rest : PUnit → Option β} {b : β} :
    (if c then (none >>= rest) else rest ⟨⟩) = some b ↔ ¬ c ∧ rest ⟨⟩ = some b := by
  by_cases h : c
  · rw [if_pos h]
    constructor
    · intro hnone
      cases hnone
    · intro hboth
      exact absurd h hboth.1
  · rw [if_neg h]
    exact (and_iff_right h).symm

theorem mapM_eq_ok_iff {f : α → Except ε β} {items : List α} {results : List β} :
    items.mapM f = .ok results ↔ items.map f = results.map .ok := by
  induction items generalizing results with
  | nil =>
    rw [List.mapM_nil, pure_eq_ok_iff, List.map_nil]
    cases results <;> simp
  | cons item items ih =>
    simp only [List.mapM_cons, bind_eq_ok_iff, pure_eq_ok_iff, ih]
    constructor
    · intro h
      obtain ⟨result, hresult, rest, hrest, rfl⟩ := h
      rw [List.map_cons, hresult, hrest, List.map_cons]
    · intro h
      match results, h with
      | result :: rest, h =>
        obtain ⟨hresult, hrest⟩ := List.cons.inj h
        exact ⟨result, hresult, rest, hrest, rfl⟩

/-- The same for items that may have no result. -/
theorem mapM_eq_some_iff {f : α → Option β} {items : List α} {results : List β} :
    items.mapM f = some results ↔ items.map f = results.map some := by
  induction items generalizing results with
  | nil => cases results <;> simp
  | cons item items ih =>
    simp only [List.mapM_cons, Option.bind_eq_bind, Option.bind_eq_some_iff, Option.pure_def, Option.some.injEq, ih]
    constructor
    · intro h
      obtain ⟨result, hresult, rest, hrest, rfl⟩ := h
      rw [List.map_cons, hresult, hrest, List.map_cons]
    · intro h
      match results, h with
      | result :: rest, h =>
        obtain ⟨hresult, hrest⟩ := List.cons.inj h
        exact ⟨result, hresult, rest, hrest, rfl⟩

/-- The answers of a successful run over a list, each with the item it is for. -/
theorem mapM_ok_getElem? {f : α → Except ε β} {items : List α} {results : List β} (h : items.mapM f = .ok results)
    (i : Nat) : (items[i]?).map f = (results[i]?).map .ok := by
  have hmap := congrArg (·[i]?) (mapM_eq_ok_iff.mp h)
  simpa only [List.getElem?_map] using hmap

/-- Where every answer is known beforehand, so are all. -/
theorem mapM_ok_eq_map {f : α → Except ε β} {g : α → β} {items : List α} {results : List β}
    (h : items.mapM f = .ok results) (hg : ∀ item ∈ items, ∀ result, f item = .ok result → result = g item) :
    results = items.map g := by
  apply List.ext_getElem?
  intro i
  have hplace := mapM_ok_getElem? h i
  rw [List.getElem?_map]
  cases hitem : items[i]? with
  | none =>
    rw [hitem, Option.map_none] at hplace
    rw [Option.map_eq_none_iff.mp hplace.symm]
    rfl
  | some item =>
    rw [hitem, Option.map_some] at hplace
    obtain ⟨result, hresult, heq⟩ := Option.map_eq_some_iff.mp hplace.symm
    rw [hresult, hg item (List.mem_of_getElem? hitem) result heq.symm, Option.map_some]

theorem mapM_ok_zip {f : α → Except ε β} {items : List α} {results : List β} (h : items.mapM f = .ok results) :
    (∀ item result, (item, result) ∈ items.zip results → f item = .ok result) ∧
      ∀ item ∈ items, ∃ result, (item, result) ∈ items.zip results := by
  rw [mapM_eq_ok_iff] at h
  induction items generalizing results with
  | nil => exact ⟨fun _ _ hmem => by simp at hmem, fun _ hmem => absurd hmem List.not_mem_nil⟩
  | cons first items ih =>
    match results, h with
    | result :: results, h =>
      obtain ⟨hfirst, hrest⟩ := List.cons.inj h
      obtain ⟨hzip, hitems⟩ := ih hrest
      rw [List.zip_cons_cons]
      constructor
      · intro item found hmem
        rcases List.mem_cons.mp hmem with heq | hmem
        · cases heq
          exact hfirst
        · exact hzip item found hmem
      · intro item hmem
        rcases List.mem_cons.mp hmem with rfl | hmem
        · exact ⟨result, List.mem_cons_self⟩
        · obtain ⟨found, hfound⟩ := hitems item hmem
          exact ⟨found, List.mem_cons_of_mem _ hfound⟩

/-- A run over a list succeeds exactly when it succeeds for every item. -/
theorem exists_mapM_eq_ok_iff {f : α → Except ε β} {items : List α} :
    (∃ results, items.mapM f = .ok results) ↔ ∀ item ∈ items, ∃ result, f item = .ok result := by
  induction items with
  | nil => exact ⟨fun _ _ h => absurd h (List.not_mem_nil), fun _ => ⟨[], rfl⟩⟩
  | cons item items ih =>
    simp only [List.mapM_cons, bind_eq_ok_iff, pure_eq_ok_iff, List.forall_mem_cons, ← ih]
    constructor
    · intro h
      obtain ⟨_, result, hresult, rest, hrest, -⟩ := h
      exact ⟨⟨result, hresult⟩, rest, hrest⟩
    · intro h
      obtain ⟨⟨result, hresult⟩, rest, hrest⟩ := h
      exact ⟨_, result, hresult, rest, hrest, rfl⟩

/-- A run over a list fails with the first item that fails. -/
theorem mapM_eq_error_iff {f : α → Except ε β} {items : List α} {e : ε} : items.mapM f = .error e ↔
    ∃ before item after, items = before ++ item :: after ∧ (∀ a ∈ before, ∃ b, f a = .ok b) ∧ f item = .error e := by
  induction items with
  | nil => exact iff_of_false (by simp [pure, Except.pure]) (by simp)
  | cons first items ih =>
    rw [List.mapM_cons, bind_eq_error_iff]
    simp only [bind_pure_eq_error_iff, ih]
    constructor
    · rintro (hfirst | ⟨b, hb, before, item, after, rfl, hbefore, hitem⟩)
      · exact ⟨[], first, items, rfl, List.forall_mem_nil _, hfirst⟩
      · exact ⟨first :: before, item, after, rfl, List.forall_mem_cons.mpr ⟨⟨b, hb⟩, hbefore⟩, hitem⟩
    · rintro ⟨before, item, after, hitems, hbefore, hitem⟩
      cases before with
      | nil =>
        obtain ⟨rfl, -⟩ := List.cons.inj hitems
        exact .inl hitem
      | cons a before =>
        obtain ⟨rfl, rfl⟩ := List.cons.inj hitems
        rw [List.forall_mem_cons] at hbefore
        obtain ⟨⟨b, hb⟩, hbefore⟩ := hbefore
        exact .inr ⟨b, hb, before, item, after, rfl, hbefore, hitem⟩

/-- The failure of a run over a list is that of an item. -/
theorem exists_of_mapM_eq_error {f : α → Except ε β} {items : List α} {e : ε} (h : items.mapM f = .error e) :
    ∃ item ∈ items, f item = .error e := by
  obtain ⟨before, item, after, rfl, -, hitem⟩ := mapM_eq_error_iff.mp h
  exact ⟨item, List.mem_append_right _ List.mem_cons_self, hitem⟩

/-- Of the first of two steps only an error shows, where the second comes to the same for all its results. -/
theorem map_bind_eq {γ : Type} {x : Except ε α} {next : α → Except ε β} {c : γ} {after : Except ε γ}
    (h : ∀ a, (next a).map (fun _ => c) = after) :
    (x >>= next).map (fun _ => c) = x.map (fun _ => ()) >>= fun _ => after := by
  cases x with
  | error e => rfl
  | ok a => exact h a

/-- Of a run over a list only an error shows, where its results are not used. -/
theorem mapM_map_congr {γ δ : Type} {f : α → Except ε β} {g : α → Except ε γ} {items : List α} {d : δ}
    (h : ∀ item ∈ items, (f item).map (fun _ => ()) = (g item).map fun _ => ()) :
    (items.mapM f).map (fun _ => d) = (items.mapM g).map fun _ => d := by
  have hrest {κ : Type} (rest : Except ε (List κ)) (k : κ) :
      (rest >>= fun ks => pure (k :: ks)).map (fun _ => d) = rest.map fun _ => d := by
    cases rest <;> rfl
  induction items with
  | nil => rfl
  | cons item items ih =>
    rw [List.forall_mem_cons] at h
    rw [List.mapM_cons, List.mapM_cons, map_bind_eq (hrest _), map_bind_eq (hrest _), h.1, ih h.2]

end SurfaceWater

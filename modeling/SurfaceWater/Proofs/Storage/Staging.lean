import SurfaceWater.Proofs.Except
import SurfaceWater.Storage

/-!
# Staged files

A staged file has a name that no entry has, so taking it away leaves exactly the storage that was there
before it came. While it is there, a path leads to a directory exactly where it did before, and so the
destination of the staged file does not depend on it. Whatever could be read before is read as it was, however
much of the staged file has been written.
-/

namespace SurfaceWater

namespace Storage

variable {s : Storage} {location other : Location} {entry : StorageEntry}

/-! ### One entry -/

theorem lookup_filter_ne (entries : List (Location × StorageEntry)) (h : other ≠ location) :
    (entries.filter (·.1 ≠ location)).lookup other = entries.lookup other := by
  induction entries with
  | nil => rfl
  | cons first entries ih =>
    obtain ⟨at?, kept⟩ := first
    by_cases hfirst : at? = location
    · have hother : (other == location) = false := beq_eq_false_iff_ne.mpr h
      rw [List.filter_cons_of_neg (by simpa using hfirst), ih, List.lookup_cons, hfirst, hother]
    · rw [List.filter_cons_of_pos (by simpa using hfirst), List.lookup_cons, List.lookup_cons, ih]

theorem get?_insert_self (h : location.isPrefixOf s.home = false) :
    (s.insert location entry).get? location = some entry := by
  simp [get?, insert, h]

theorem get?_insert_of_ne (h : other ≠ location) : (s.insert location entry).get? other = s.get? other := by
  have hother : (other == location) = false := beq_eq_false_iff_ne.mpr h
  simp only [get?, insert, List.lookup_cons, hother, lookup_filter_ne s.entries h]

/-- An entry that was added where there was none can be taken away again. -/
theorem erase_insert (h : ∀ kept ∈ s.entries, kept.1 ≠ location) : (s.insert location entry).erase location = s := by
  have hkept : s.entries.filter (·.1 ≠ location) = s.entries :=
    List.filter_eq_self.mpr fun kept hmem => by simpa using h kept hmem
  simp only [erase, insert, List.filter_cons, ne_eq, not_true_eq_false, decide_false, Bool.false_eq_true, if_false,
    List.filter_filter, Bool.and_self]
  rw [hkept]

/-! ### Fresh names -/

theorem length_lt_freshName {kept : Location × StorageEntry} (hkept : kept ∈ s.entries) {name : String}
    (hname : name ∈ kept.1) : name.length < s.freshName.length := by
  have hmem : name.length ∈ s.entries.flatMap fun kept => kept.1.map String.length :=
    List.mem_flatMap.mpr ⟨kept, hkept, List.mem_map_of_mem hname⟩
  have hle := Nat.le_trans (List.le_max?_getD_of_mem (k := 0) hmem) (Nat.le_max_right 0 _)
  rw [← List.foldl_max] at hle
  simp only [freshName, String.length_ofList, List.length_cons, List.length_replicate]
  omega

/-- No entry is kept where a file is staged. -/
theorem stage_eq_ok {path : String} {staged : Location} {during : Storage} (h : s.stage path = .ok (staged, during)) :
    during = s.insert staged (.file #[]) ∧ ∀ kept ∈ s.entries, kept.1 ≠ staged := by
  simp only [stage, guard_eq_ok_iff, bind_eq_ok_iff, pure_eq_ok_iff, Prod.mk.injEq] at h
  obtain ⟨-, -, parent, -, directory, -, rfl, rfl⟩ := h
  refine ⟨rfl, fun kept hkept heq => ?_⟩
  have hname : s.freshName ∈ kept.1 := by
    rw [heq]
    exact List.mem_append_right _ (List.mem_singleton_self _)
  exact absurd (length_lt_freshName hkept hname) (Nat.lt_irrefl _)

/-! ### Paths beside a staged file -/

theorem directory_eq_ok_iff : s.directory location = .ok other ↔ s.get? location = some .directory ∧ location = other := by
  unfold directory
  cases s.get? location with
  | none => simp
  | some kept => cases kept <;> simp

section

variable {staged : Location} {content : Bytes}

/-- A file kept in place of no directory neither hides a directory nor makes one. -/
theorem get?_insert_file_eq_directory (hfree : s.entries.lookup staged ≠ some .directory) :
    (s.insert staged (.file content)).get? location = some .directory ↔ s.get? location = some .directory := by
  by_cases hlocation : location = staged
  · subst hlocation
    cases hhome : location.isPrefixOf s.home with
    | true => simp [get?, insert, hhome]
    | false => simp [get?, insert, hhome, hfree]
  · rw [get?_insert_of_ne hlocation]

theorem directory_insert_file (hfree : s.entries.lookup staged ≠ some .directory) :
    (s.insert staged (.file content)).directory location = .ok other ↔ s.directory location = .ok other := by
  rw [directory_eq_ok_iff, directory_eq_ok_iff, get?_insert_file_eq_directory hfree]

theorem step_insert_file (hfree : s.entries.lookup staged ≠ some .directory) {name : String} :
    (s.insert staged (.file content)).step location name = .ok other ↔ s.step location name = .ok other := by
  simp only [step, bind_eq_ok_iff, directory_insert_file hfree]

theorem locate_insert_file (hfree : s.entries.lookup staged ≠ some .directory) {path : String} :
    (s.insert staged (.file content)).locate path = .ok other ↔ s.locate path = .ok other := by
  have horigin : (s.insert staged (.file content)).origin path = s.origin path := rfl
  rw [locate, locate, horigin]
  generalize s.origin path = start
  induction pathSteps path generalizing start with
  | nil => rw [List.foldlM_nil, List.foldlM_nil]
  | cons name names ih => simp only [List.foldlM_cons, bind_eq_ok_iff, step_insert_file hfree, ih]

theorem destination_eq_ok_iff {path : String} :
    s.destination path = .ok location ↔
      hasNull path = false ∧ path ≠ "" ∧ path.utf8ByteSize ≤ pathLimit ∧ endsInSlash path = false ∧
        (∃ name, (pathSteps path).getLast? = some name ∧ name ≠ "." ∧ name ≠ "..") ∧
        s.locate path = .ok location ∧ s.get? location ≠ some .directory := by
  simp only [destination, guard_eq_ok_iff, bind_eq_ok_iff, Bool.not_eq_true, Nat.not_lt]
  cases (pathSteps path).getLast? with
  | none => simp
  | some name =>
    simp only [guard_eq_ok_iff, pure_eq_ok_iff, Option.some.injEq, exists_eq_left', Bool.or_eq_true,
      decide_eq_true_eq, not_or, Bool.not_eq_true]
    constructor
    · intro h
      obtain ⟨hnull, hempty, hlimit, _, hlocate, hdots, hslash, hdirectory, rfl⟩ := h
      exact ⟨hnull, hempty, hlimit, hslash, hdots, hlocate, hdirectory⟩
    · intro h
      obtain ⟨hnull, hempty, hlimit, hslash, hdots, hlocate, hdirectory⟩ := h
      exact ⟨hnull, hempty, hlimit, location, hlocate, hdots, hslash, hdirectory, rfl⟩

theorem destination_insert_file (hfree : s.entries.lookup staged ≠ some .directory) {path : String} :
    (s.insert staged (.file content)).destination path = .ok location ↔ s.destination path = .ok location := by
  rw [destination_eq_ok_iff, destination_eq_ok_iff, locate_insert_file hfree, ne_eq, ne_eq,
    get?_insert_file_eq_directory hfree]

/-- What is published is kept at its destination, and nothing else is touched. -/
theorem publish_eq_ok_iff {path : String} {during after : Storage} (hstage : s.stage path = .ok (staged, during)) :
    during.publish staged content path = .ok after ↔
      ∃ location, s.destination path = .ok location ∧ s.insert location (.file content) = after := by
  obtain ⟨rfl, hfresh⟩ := stage_eq_ok hstage
  have hfree : s.entries.lookup staged ≠ some .directory := by
    rw [List.lookup_eq_none_iff.mpr fun kept hkept => by simpa using (hfresh kept hkept).symm]
    simp
  simp only [publish, bind_eq_ok_iff, pure_eq_ok_iff, destination_insert_file hfree, erase_insert hfresh]

/-- The working directory is not a destination, nor is one above it. -/
theorem isPrefixOf_home_of_ne_directory (h : s.get? location ≠ some .directory) : location.isPrefixOf s.home = false := by
  cases hhome : location.isPrefixOf s.home with
  | true => simp [get?, hhome] at h
  | false => rfl

/-- A file written to a destination is found there. -/
theorem entry_insert_destination {path : String} (h : s.destination path = .ok location) :
    (s.insert location (.file content)).entry path = .ok (.file content) := by
  obtain ⟨hnull, hempty, hlimit, hslash, -, hlocate, hdirectory⟩ := destination_eq_ok_iff.mp h
  have hhome := isPrefixOf_home_of_ne_directory hdirectory
  have hfree : s.entries.lookup location ≠ some .directory := by simpa [get?, hhome] using hdirectory
  simp only [entry, guard_eq_ok_iff, bind_eq_ok_iff]
  refine ⟨by simp [hnull], hempty, Nat.not_lt.mpr hlimit, location, (locate_insert_file hfree).mpr hlocate, ?_⟩
  rw [get?_insert_self hhome, hslash]
  rfl

end

/-! ### Reading beside a staged file -/

/-- The storage while a file with some content is staged for a path. -/
def beside (s : Storage) (path : String) (content : Bytes) : Storage :=
  match s.stage path with
  | .ok (staged, begun) => begun.insert staged (.file content)
  | .error _ => s

theorem beside_eq {path : String} {staged : Location} {begun : Storage} (h : s.stage path = .ok (staged, begun)) :
    s.beside path = fun content => begun.insert staged (.file content) := by
  funext content
  rw [beside, h]

theorem insert_insert (first second : StorageEntry) :
    (s.insert location first).insert location second = s.insert location second := by
  simp [insert, List.filter_filter]

/-- What is kept stays where it is when something is added at a location that has no entry. -/
theorem get?_insert_of_kept {staged : Location} {kept : StorageEntry} (hfresh : ∀ other ∈ s.entries, other.1 ≠ staged)
    (hkept : s.get? location = some kept) : (s.insert staged entry).get? location = some kept := by
  by_cases hlocation : location = staged
  · subst hlocation
    cases hhome : location.isPrefixOf s.home with
    | true =>
      simp only [get?, hhome, if_true] at hkept
      simpa only [get?, insert, hhome, if_true] using hkept
    | false =>
      have hnone : s.entries.lookup location = none :=
        List.lookup_eq_none_iff.mpr fun other hother => by simpa using (hfresh other hother).symm
      simp [get?, hhome, hnone] at hkept
  · rw [get?_insert_of_ne hlocation, hkept]

theorem entry_insert_of_kept {staged : Location} {content : Bytes} {path : String} {kept : StorageEntry}
    (hfresh : ∀ other ∈ s.entries, other.1 ≠ staged) (hkept : s.entry path = .ok kept) :
    (s.insert staged (.file content)).entry path = .ok kept := by
  have hfree : s.entries.lookup staged ≠ some .directory := by
    rw [List.lookup_eq_none_iff.mpr fun other hother => by simpa using (hfresh other hother).symm]
    simp
  simp only [Storage.entry, guard_eq_ok_iff, bind_eq_ok_iff] at hkept ⊢
  obtain ⟨hnull, hempty, hlimit, location, hlocate, hfound⟩ := hkept
  refine ⟨hnull, hempty, hlimit, location, (locate_insert_file hfree).mpr hlocate, ?_⟩
  cases hget : s.get? location with
  | none =>
    rw [hget] at hfound
    cases hfound
  | some found =>
    rw [hget] at hfound
    rwa [get?_insert_of_kept hfresh hget]

/-- A staged file, as far as it is written, hides nothing that a path leads to. -/
theorem entry_beside {path other : String} {content : Bytes} {kept : StorageEntry} (h : s.entry other = .ok kept) :
    (s.beside path content).entry other = .ok kept := by
  unfold beside
  cases hstage : s.stage path with
  | error fault => exact h
  | ok staging =>
    obtain ⟨staged, begun⟩ := staging
    obtain ⟨rfl, hfresh⟩ := stage_eq_ok hstage
    dsimp only
    rw [insert_insert]
    exact entry_insert_of_kept hfresh h

/-! ### Publication -/

/-- A file was written to a path, and nothing else happened. -/
structure Published (before after : Storage) (path : String) (content : Bytes) : Prop where
  found : after.entry path = .ok (.file content)
  changed : ∃ location, before.destination path = .ok location ∧ after.get? location = some (.file content) ∧
    ∀ other, other ≠ location → after.get? other = before.get? other

/-- A file can be written to a path, in place of what is there. -/
structure Writable (storage : Storage) (path : String) : Prop where
  staged : ∃ staged, storage.stage path = .ok staged
  destination : ∃ location, storage.destination path = .ok location

theorem published_insert {path : String} {content : Bytes} (h : s.destination path = .ok location) :
    s.Published (s.insert location (.file content)) path content := by
  have hentry : (s.insert location (.file content)).entry path = .ok (.file content) := entry_insert_destination h
  obtain ⟨-, -, -, -, -, -, hdirectory⟩ := destination_eq_ok_iff.mp h
  refine ⟨hentry, location, h, get?_insert_self (isPrefixOf_home_of_ne_directory hdirectory), ?_⟩
  intro other hother
  exact get?_insert_of_ne hother

end Storage

end SurfaceWater

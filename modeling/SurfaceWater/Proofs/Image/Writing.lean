import SurfaceWater.Proofs.Image.Requests
import SurfaceWater.Proofs.Storage.Staging

/-!
# Writing a label file

However a source replies, a file is written as a whole or not at all, and its content is a function of the
replies: the source and the encoder take turns, and both are used up to the first failure of either. While that
goes on, the storage is what it was before, beside a file that is not complete.
-/

namespace SurfaceWater

namespace LabelFile

variable {σ : Type} {codec : ImageCodec} {source : StripSource σ}

/-! ### Content -/

section

variable {during : Bytes → Storage} {g : GeoReference} {noData : UInt8} {stripRows : Nat} {state : σ}

/-- What the content of a file is made of. -/
theorem run_produce : ((produce codec source during g noData stripRows).run.run state).1 = (do
    let calls ← header codec source.rows source.cols stripRows g noData
    let calls ← (exchanges codec source during (strips source.rows stripRows source.rows 0) calls state).foldlM
      (hand codec source.cols) calls
    let calls ← codec.tell calls .finish .unfinished
    return codec.written calls) := by
  rw [produce, run_bind, run_lift]
  cases header codec source.rows source.cols stripRows g noData with
  | error e => rfl
  | ok calls =>
    have htold : ((tellStrips codec source during (strips source.rows stripRows source.rows 0) calls).run.run state).1 = _ :=
      run_tellStrips _ _ _
    dsimp only
    rw [run_bind]
    simp only [bind, Except.bind, ← htold]
    rcases (tellStrips codec source during (strips source.rows stripRows source.rows 0) calls).run.run state with
      ⟨e | told, after⟩
    · rfl
    · dsimp only
      cases codec.tell told .finish .unfinished <;> rfl

/-- The requests for the strips of a file, with the replies to them. -/
def conversation (codec : ImageCodec) (source : StripSource σ) (during : Bytes → Storage) (g : GeoReference)
    (noData : UInt8) (stripRows : Nat) (state : σ) : List Exchange :=
  exchanges codec source during (strips source.rows stripRows source.rows 0)
    (headerCalls source.rows source.cols stripRows g noData) state

variable {content : Bytes}

/-- A content is produced when all strips are delivered and the encoder takes all that it is told. -/
theorem produce_eq_ok_iff : ((produce codec source during g noData stripRows).run.run state).1 = .ok content ↔
    (source.cols < UInt32.size ∧ source.rows < UInt32.size ∧ stripRows < UInt32.size) ∧
      ∃ out, (conversation codec source during g noData stripRows state).mapM (replyBytes source.cols) = .ok out ∧
        (conversation codec source during g noData stripRows state).map Prod.fst =
          strips source.rows stripRows source.rows 0 ∧
        codec.takes [] (session source.rows source.cols stripRows g noData out) = true ∧
        codec.written (session source.rows source.cols stripRows g noData out) = content := by
  simp only [run_produce, bind_eq_ok_iff, header_eq_ok_iff, pure_eq_ok_iff, ImageCodec.tell_eq_ok_iff]
  constructor
  · intro h
    obtain ⟨_, ⟨hsizes, hheader, rfl⟩, told, htold, _, ⟨hfinish, rfl⟩, rfl⟩ := h
    have hrequests := map_fst_exchanges_of_ok htold
    obtain ⟨out, hout, hstrips, rfl⟩ := foldlM_hand_eq_ok_iff.mp htold
    exact ⟨hsizes, out, hout, hrequests,
      ImageCodec.takes_append.mpr ⟨ImageCodec.takes_append.mpr ⟨hheader, hstrips⟩, hfinish⟩, rfl⟩
  · intro h
    obtain ⟨hsizes, out, hout, -, htakes, rfl⟩ := h
    obtain ⟨hbefore, hfinish⟩ := ImageCodec.takes_append.mp htakes
    obtain ⟨hheader, hstrips⟩ := ImageCodec.takes_append.mp hbefore
    exact ⟨_, ⟨hsizes, hheader, rfl⟩, _, foldlM_hand_eq_ok_iff.mpr ⟨out, hout, hstrips, rfl⟩, _, ⟨hfinish, rfl⟩, rfl⟩

/-- The state is only changed by replies. -/
theorem state_produce {τ : Type} (view : σ → τ) (next : τ → Exchange → τ)
    (hnext : ∀ storage request state, view (source.reply storage request state).2 =
      next (view state) (request, (source.reply storage request state).1))
    {calls : List EncoderCall} (hheader : header codec source.rows source.cols stripRows g noData = .ok calls) :
    view ((produce codec source during g noData stripRows).run.run state).2 =
      (conversation codec source during g noData stripRows state).foldl next (view state) := by
  obtain ⟨-, -, rfl⟩ := header_eq_ok_iff.mp hheader
  have hstate : view ((tellStrips codec source during (strips source.rows stripRows source.rows 0)
      (headerCalls source.rows source.cols stripRows g noData)).run.run state).2 = _ :=
    state_tellStrips _ _ _ view next hnext
  rw [conversation, ← hstate, produce, run_bind, run_lift, hheader]
  dsimp only
  rw [run_bind]
  rcases (tellStrips codec source during (strips source.rows stripRows source.rows 0)
    (headerCalls source.rows source.cols stripRows g noData)).run.run state with ⟨e | told, after⟩
  · rfl
  · dsimp only
    rw [run_bind, run_lift]
    cases codec.tell told .finish .unfinished <;> rfl

/-- To keep a list of the requests changes nothing. -/
theorem produce_logged (log : List (Nat × Nat)) :
    ((produce codec source.logged during g noData stripRows).run.run (state, log)).1 =
      ((produce codec source during g noData stripRows).run.run state).1 := by
  rw [run_produce, run_produce]
  simp only [exchanges_logged]
  rfl

end

/-! ### All or nothing -/

section

variable {storage after : Storage} {path : String} {g : GeoReference} {noData : UInt8}
  {rowsPerStrip : Option Nat} {state : σ}

/-- A write that can begin ends with what is produced beside its path, or with a failure to move it there. -/
theorem write_eq (hsize : source.rows ≠ 0 ∧ source.cols ≠ 0) (hstrip : rowsPerStrip.getD standardRowsPerStrip ≠ 0)
    {staged : Location} {begun : Storage} (hstage : storage.stage path = .ok (staged, begun)) :
    write codec storage path source g noData rowsPerStrip state =
      match (produce codec source (storage.beside path) g noData
          (min (rowsPerStrip.getD standardRowsPerStrip) source.rows)).run.run state with
      | (.error error, last) => ((.error error, storage), last)
      | (.ok content, last) => match begun.publish staged content path with
        | .error fault => ((.error (.storage fault), storage), last)
        | .ok published => ((.ok (), published), last) := by
  obtain ⟨hbegun, hfresh⟩ := Storage.stage_eq_ok hstage
  have herase : begun.erase staged = storage := by rw [hbegun, Storage.erase_insert hfresh]
  rw [Storage.beside_eq hstage]
  simp only [write, not_or.mpr hsize, hstrip, if_false, hstage, herase]
  rfl

/-- A write that fails leaves the storage as it was. -/
theorem write_error {error : Error}
    (h : (write codec storage path source g noData rowsPerStrip state).1 = (.error error, after)) : after = storage := by
  by_cases hsize : source.rows = 0 ∨ source.cols = 0
  · simp only [write, hsize, if_true] at h
    exact (Prod.mk.inj h).2.symm
  by_cases hstrip : rowsPerStrip.getD standardRowsPerStrip = 0
  · simp only [write, hsize, hstrip, if_false, if_true] at h
    exact (Prod.mk.inj h).2.symm
  cases hstage : storage.stage path with
  | error fault =>
    simp only [write, hsize, hstrip, hstage, if_false] at h
    exact (Prod.mk.inj h).2.symm
  | ok staging =>
    rw [write_eq (not_or.mp hsize) hstrip hstage] at h
    split at h
    · exact (Prod.mk.inj h).2.symm
    · split at h
      · exact (Prod.mk.inj h).2.symm
      · cases (Prod.mk.inj h).1

/-- A write succeeds exactly when there is something to write, it can be staged and moved to its path,
and its content is produced. Then that path is all that changes. -/
theorem write_ok_iff :
    (write codec storage path source g noData rowsPerStrip state).1 = (.ok (), after) ↔
      (source.rows ≠ 0 ∧ source.cols ≠ 0) ∧ rowsPerStrip.getD standardRowsPerStrip ≠ 0 ∧
        (∃ staged, storage.stage path = .ok staged) ∧
        ∃ location content, storage.destination path = .ok location ∧
          ((produce codec source (storage.beside path) g noData
            (min (rowsPerStrip.getD standardRowsPerStrip) source.rows)).run.run state).1 = .ok content ∧
          storage.insert location (.file content) = after := by
  by_cases hsize : source.rows = 0 ∨ source.cols = 0
  · simp only [write, hsize, if_true, Prod.mk.injEq, reduceCtorEq, false_and, false_iff]
    intro h
    rcases hsize with hzero | hzero
    · exact h.1.1 hzero
    · exact h.1.2 hzero
  by_cases hstrip : rowsPerStrip.getD standardRowsPerStrip = 0
  · simp [write, hsize, hstrip]
  cases hstage : storage.stage path with
  | error fault => simp [write, hsize, hstrip, hstage]
  | ok staging =>
    rw [write_eq (not_or.mp hsize) hstrip hstage]
    rcases (produce codec source (storage.beside path) g noData
      (min (rowsPerStrip.getD standardRowsPerStrip) source.rows)).run.run state with ⟨error | content, last⟩
    · simp
    · have hpublish : staging.2.publish staging.1 content path = .ok after ↔ _ := Storage.publish_eq_ok_iff hstage
      dsimp only
      constructor
      · intro h
        split at h
        · cases (Prod.mk.inj h).1
        · rename_i published hpublished
          obtain ⟨-, rfl⟩ := Prod.mk.inj h
          obtain ⟨location, hlocation, hafter⟩ := hpublish.mp hpublished
          exact ⟨not_or.mp hsize, hstrip, ⟨_, rfl⟩, location, content, hlocation, rfl, hafter⟩
      · intro h
        obtain ⟨-, -, -, location, content', hlocation, hcontent, hafter⟩ := h
        rw [hpublish.mpr ⟨location, hlocation, Except.ok.inj hcontent ▸ hafter⟩]

/-- What was written is the whole content, and nothing else has changed. -/
theorem write_publishes (h : (write codec storage path source g noData rowsPerStrip state).1 = (.ok (), after)) :
    ∃ content, ((produce codec source (storage.beside path) g noData
        (min (rowsPerStrip.getD standardRowsPerStrip) source.rows)).run.run state).1 = .ok content ∧
      storage.Published after path content := by
  obtain ⟨-, -, -, location, content, hlocation, hcontent, rfl⟩ := write_ok_iff.mp h
  exact ⟨content, hcontent, Storage.published_insert hlocation⟩

/-- The state after a write is that after its content was produced. -/
theorem write_state (hsize : source.rows ≠ 0 ∧ source.cols ≠ 0) (hstrip : rowsPerStrip.getD standardRowsPerStrip ≠ 0)
    (hstaged : ∃ staged, storage.stage path = .ok staged) :
    (write codec storage path source g noData rowsPerStrip state).2 = ((produce codec source (storage.beside path) g noData
      (min (rowsPerStrip.getD standardRowsPerStrip) source.rows)).run.run state).2 := by
  obtain ⟨⟨staged, begun⟩, hstaged⟩ := hstaged
  rw [write_eq hsize hstrip hstaged]
  rcases (produce codec source (storage.beside path) g noData
    (min (rowsPerStrip.getD standardRowsPerStrip) source.rows)).run.run state with ⟨error | content, after⟩
  · rfl
  · dsimp only
    split <;> rfl

/-- To keep a list of the requests changes nothing. -/
theorem write_logged (state : σ) (log : List (Nat × Nat)) :
    (write codec storage path source.logged g noData rowsPerStrip (state, log)).1 =
      (write codec storage path source g noData rowsPerStrip state).1 := by
  have hrows : source.logged.rows = source.rows := rfl
  have hcols : source.logged.cols = source.cols := rfl
  by_cases hsize : source.rows = 0 ∨ source.cols = 0
  · simp only [write, hrows, hcols, hsize, if_true]
  by_cases hstrip : rowsPerStrip.getD standardRowsPerStrip = 0
  · simp only [write, hrows, hcols, hsize, hstrip, if_true, if_false]
  cases hstage : storage.stage path with
  | error fault => simp only [write, hrows, hcols, hsize, hstrip, hstage, if_false]
  | ok staging =>
    have hproduce : ((produce codec source.logged (storage.beside path) g noData
        (min (rowsPerStrip.getD standardRowsPerStrip) source.rows)).run.run (state, log)).1 = _ := produce_logged log
    have hlogged : source.logged.rows ≠ 0 ∧ source.logged.cols ≠ 0 := not_or.mp hsize
    rw [write_eq hlogged hstrip hstage, write_eq (not_or.mp hsize) hstrip hstage, hrows]
    revert hproduce
    rcases (produce codec source.logged (storage.beside path) g noData
      (min (rowsPerStrip.getD standardRowsPerStrip) source.rows)).run.run (state, log) with ⟨result, after⟩
    rcases (produce codec source (storage.beside path) g noData
      (min (rowsPerStrip.getD standardRowsPerStrip) source.rows)).run.run state with ⟨other, otherAfter⟩
    intro hproduce
    obtain rfl : result = other := hproduce
    cases result with
    | error e => rfl
    | ok content =>
      dsimp only
      split <;> rfl

end

end LabelFile

end SurfaceWater

import SurfaceWater.Proofs.Image.Codec

/-!
# What a source is asked for

A source of strips replies to one request after another, and each reply may depend on all requests before
it and on what the storage holds at the time. Requests are made until one is not met, by an error or by a
raster of another shape, or its strip is not taken by the encoder; what comes of them is a function of the
replies, and none of it is about the source otherwise.
-/

namespace SurfaceWater

section

variable {σ α β : Type}

theorem run_bind (step : ExceptT Error (StateM σ) α) (next : α → ExceptT Error (StateM σ) β) (state : σ) :
    (step >>= next).run.run state = match step.run.run state with
      | (.ok a, after) => (next a).run.run after
      | (.error e, after) => (.error e, after) := by
  show ExceptT.bindCont next (step.run.run state).1 (step.run.run state).2 = _
  rcases step.run.run state with ⟨e | a, after⟩ <;> rfl

theorem run_lift (x : Except Error α) (state : σ) : (liftM x : ExceptT Error (StateM σ) α).run.run state = (x, state) := by
  cases x <;> rfl

end

variable {σ : Type}

/-- A request, as the first row and the number of rows of a strip, with the reply to it. -/
abbrev Exchange := (Nat × Nat) × Except Error (Raster UInt8)

namespace StripSource

/-- The reply to a request that finds the storage so, and the state after it. -/
def reply (source : StripSource σ) (storage : Storage) (request : Nat × Nat) (state : σ) :
    Except Error (Raster UInt8) × σ :=
  (source.strip storage request.1 request.2).run.run state

/-- A reply is a strip of the shape that was asked for. -/
def delivers (source : StripSource σ) (exchange : Exchange) : Bool :=
  match exchange with
  | ((_, rows), .ok strip) => strip.rows = rows && strip.cols = source.cols
  | (_, .error _) => false

/-- The source with a list of the requests that were made to it. -/
def logged (source : StripSource σ) : StripSource (σ × List (Nat × Nat)) where
  rows := source.rows
  cols := source.cols
  strip storage rowOffset rows := ExceptT.mk fun (state, log) =>
    let (reply, next) := source.reply storage (rowOffset, rows) state
    (reply, (next, log ++ [(rowOffset, rows)]))

/-- The cells that a source shows while a file is written do not depend on when and how it is asked for
them. -/
def Holds (source : StripSource σ) (during : Bytes → Storage) (value : Nat → Nat → UInt8) : Prop :=
  ∀ content request state strip, (source.reply (during content) request state).1 = .ok strip →
    ∀ row col cell, strip.get? row col = some cell → cell = value (request.1 + row) col

end StripSource

namespace LabelFile

/-! ### One strip -/

/-- The bytes of a strip, which must have the shape that was asked for. -/
def stripBytes (cols height : Nat) (strip : Raster UInt8) : Except Error (List UInt8) := do
  if strip.rows ≠ height ∨ strip.cols ≠ cols then throw (.sizeMismatch height cols strip.rows strip.cols)
  return strip.toRows.toList

theorem stripBytes_eq_ok_iff {cols height : Nat} {strip : Raster UInt8} {bytes : List UInt8} :
    stripBytes cols height strip = .ok bytes ↔
      (strip.rows = height ∧ strip.cols = cols) ∧ strip.toRows.toList = bytes := by
  simp only [stripBytes, guard_eq_ok_iff, pure_eq_ok_iff, not_or, Decidable.not_not]

/-- The bytes that a reply to a request gives. -/
def replyBytes (cols : Nat) (exchange : Exchange) : Except Error (List UInt8) :=
  exchange.2 >>= stripBytes cols exchange.1.2

/-- The encoder is told of the strip in a reply. -/
def hand (codec : ImageCodec) (cols : Nat) (calls : List EncoderCall) (exchange : Exchange) :
    Except Error (List EncoderCall) := do
  let bytes ← replyBytes cols exchange
  codec.tell calls (.strip bytes) (.strip exchange.1.1)

section

variable {source : StripSource σ} {storage : Storage}

theorem run_requestStrip (request : Nat × Nat) (state : σ) :
    (requestStrip source storage request.1 request.2).run.run state =
      (replyBytes source.cols (request, (source.reply storage request state).1),
        (source.reply storage request state).2) := by
  have hreply : (source.strip storage request.1 request.2).run.run state = source.reply storage request state := rfl
  rw [requestStrip, run_bind, hreply]
  rcases source.reply storage request state with ⟨e | strip, after⟩
  · rfl
  · show _ = (stripBytes source.cols request.2 strip, after)
    unfold stripBytes
    by_cases hshape : strip.rows ≠ request.2 ∨ strip.cols ≠ source.cols
    · simp only [hshape, if_true]
      rfl
    · simp only [hshape, if_false]
      rfl

/-- A request is met exactly when its reply is a strip of its shape. -/
theorem exists_replyBytes_iff {exchange : Exchange} :
    (∃ bytes, replyBytes source.cols exchange = .ok bytes) ↔ source.delivers exchange = true := by
  obtain ⟨⟨rowOffset, rows⟩, reply⟩ := exchange
  simp only [replyBytes, bind_eq_ok_iff, stripBytes_eq_ok_iff]
  cases reply with
  | error e => simp [StripSource.delivers]
  | ok strip => simp [StripSource.delivers]

end

/-! ### All strips -/

section

variable (codec : ImageCodec) (source : StripSource σ) (during : Bytes → Storage)

/-- The requests that are made and the replies to them, while the encoder is told of each strip before the
next one is asked for: up to the first that is not met or not taken. -/
def exchanges : List (Nat × Nat) → List EncoderCall → σ → List Exchange
  | [], _, _ => []
  | request :: requests, calls, state =>
    let (reply, next) := source.reply (during (codec.written calls)) request state
    (request, reply) :: match hand codec source.cols calls (request, reply) with
      | .ok after => exchanges requests after next
      | .error _ => []

end

section

variable {codec : ImageCodec} {source : StripSource σ} {during : Bytes → Storage} {cols : Nat}
  (requests : List (Nat × Nat)) (calls : List EncoderCall) (state : σ)

/-- One request, and what comes after it. -/
theorem run_tellStrips_cons (request : Nat × Nat) :
    (tellStrips codec source during (request :: requests) calls).run.run state =
      match hand codec source.cols calls (request, (source.reply (during (codec.written calls)) request state).1) with
      | .ok after => (tellStrips codec source during requests after).run.run
          (source.reply (during (codec.written calls)) request state).2
      | .error e => (.error e, (source.reply (during (codec.written calls)) request state).2) := by
  rw [tellStrips, run_bind, run_requestStrip, hand]
  dsimp only
  cases replyBytes source.cols (request, (source.reply (during (codec.written calls)) request state).1) with
  | error e => rfl
  | ok bytes =>
    show _ = match codec.tell calls (.strip bytes) (.strip request.1) with
      | .ok after => _
      | .error e => _
    simp only [run_bind, run_lift]
    cases codec.tell calls (.strip bytes) (.strip request.1) <;> rfl

/-- What the encoder was told in the end depends on the replies alone. -/
theorem run_tellStrips : ((tellStrips codec source during requests calls).run.run state).1 =
    (exchanges codec source during requests calls state).foldlM (hand codec source.cols) calls := by
  induction requests generalizing calls state with
  | nil => rfl
  | cons request requests ih =>
    rw [run_tellStrips_cons, exchanges]
    dsimp only
    rw [List.foldlM_cons]
    cases hand codec source.cols calls (request, (source.reply (during (codec.written calls)) request state).1) with
    | error e => rfl
    | ok after => exact ih _ _

/-- What is known of the state after each reply is known of it in the end. -/
theorem state_tellStrips {τ : Type} (view : σ → τ) (next : τ → Exchange → τ)
    (hnext : ∀ storage request state, view (source.reply storage request state).2 =
      next (view state) (request, (source.reply storage request state).1)) :
    view ((tellStrips codec source during requests calls).run.run state).2 =
      (exchanges codec source during requests calls state).foldl next (view state) := by
  induction requests generalizing calls state with
  | nil => rfl
  | cons request requests ih =>
    rw [run_tellStrips_cons, exchanges]
    dsimp only
    rw [List.foldl_cons, ← hnext]
    cases hand codec source.cols calls (request, (source.reply (during (codec.written calls)) request state).1) with
    | error e => rfl
    | ok after => exact ih _ _

variable {requests calls state}

/-- Replies give the strips that the encoder is told of. -/
theorem foldlM_hand_eq_ok_iff {items : List Exchange} {after : List EncoderCall} :
    items.foldlM (hand codec cols) calls = .ok after ↔ ∃ out, items.mapM (replyBytes cols) = .ok out ∧
      codec.takes calls (out.map .strip) = true ∧ calls ++ out.map .strip = after := by
  induction items generalizing calls with
  | nil =>
    simp only [List.foldlM_nil, pure_eq_ok_iff, List.mapM_nil, exists_eq_left', List.map_nil, List.append_nil]
    exact (and_iff_right rfl).symm
  | cons item items ih =>
    simp only [List.foldlM_cons, List.mapM_cons, hand, bind_eq_ok_iff, pure_eq_ok_iff, ImageCodec.tell_eq_ok_iff, ih]
    constructor
    · intro h
      obtain ⟨_, ⟨bytes, hbytes, htaken, rfl⟩, out, hout, hrest, rfl⟩ := h
      refine ⟨bytes :: out, ⟨bytes, hbytes, out, hout, rfl⟩, ?_, by simp⟩
      rw [List.map_cons, ← List.singleton_append, ImageCodec.takes_append]
      exact ⟨htaken, hrest⟩
    · intro h
      obtain ⟨_, ⟨bytes, hbytes, out, hout, rfl⟩, htaken, rfl⟩ := h
      rw [List.map_cons, ← List.singleton_append, ImageCodec.takes_append] at htaken
      exact ⟨_, ⟨bytes, hbytes, htaken.1, rfl⟩, out, hout, htaken.2, by simp⟩

theorem map_fst_exchanges_isPrefix : (exchanges codec source during requests calls state).map Prod.fst <+: requests := by
  induction requests generalizing calls state with
  | nil => exact List.prefix_rfl
  | cons request requests ih =>
    rw [exchanges]
    dsimp only
    rw [List.map_cons, List.cons_prefix_cons]
    refine ⟨rfl, ?_⟩
    split
    · exact ih
    · exact List.nil_prefix

/-- A reply was given at some time of the writing. -/
theorem exists_reply_of_mem {exchange : Exchange} (h : exchange ∈ exchanges codec source during requests calls state) :
    ∃ content before, (source.reply (during content) exchange.1 before).1 = exchange.2 := by
  induction requests generalizing calls state with
  | nil => cases h
  | cons request requests ih =>
    rw [exchanges] at h
    dsimp only at h
    rcases List.mem_cons.mp h with rfl | h
    · exact ⟨_, _, rfl⟩
    · split at h
      · exact ih h
      · cases h

/-- After a request that is not met there is no other one. -/
theorem delivers_of_mem_dropLast {exchange : Exchange}
    (h : exchange ∈ (exchanges codec source during requests calls state).dropLast) : source.delivers exchange = true := by
  induction requests generalizing calls state with
  | nil => cases h
  | cons request requests ih =>
    rw [exchanges] at h
    dsimp only at h
    split at h
    next after hafter =>
      cases hrest : exchanges codec source during requests after
          (source.reply (during (codec.written calls)) request state).2 with
      | nil =>
        rw [hrest] at h
        cases h
      | cons first rest =>
        rw [hrest, List.dropLast_cons_of_ne_nil (List.cons_ne_nil _ _), ← hrest] at h
        rcases List.mem_cons.mp h with rfl | h
        · obtain ⟨bytes, hbytes, -⟩ := bind_eq_ok_iff.mp hafter
          exact exists_replyBytes_iff.mp ⟨bytes, hbytes⟩
        · exact ih h
    next => cases h

/-- Where the encoder was told of every strip, all requests were made. -/
theorem map_fst_exchanges_of_ok {after : List EncoderCall}
    (h : (exchanges codec source during requests calls state).foldlM (hand codec source.cols) calls = .ok after) :
    (exchanges codec source during requests calls state).map Prod.fst = requests := by
  induction requests generalizing calls state with
  | nil => rfl
  | cons request requests ih =>
    rw [exchanges] at h ⊢
    dsimp only at h ⊢
    rw [List.foldlM_cons, bind_eq_ok_iff] at h
    obtain ⟨next, hnext, h⟩ := h
    rw [hnext] at h ⊢
    rw [List.map_cons, ih h]

/-- A list of what was asked has no part in the replies. -/
theorem exchanges_logged (log : List (Nat × Nat)) :
    exchanges codec source.logged during requests calls (state, log) =
      exchanges codec source during requests calls state := by
  induction requests generalizing calls state log with
  | nil => rfl
  | cons request requests ih =>
    have hreply : source.logged.reply (during (codec.written calls)) request (state, log) =
        ((source.reply (during (codec.written calls)) request state).1,
          (source.reply (during (codec.written calls)) request state).2, log ++ [request]) := rfl
    have hcols : source.logged.cols = source.cols := rfl
    rw [exchanges, exchanges, hreply, hcols]
    dsimp only
    refine congrArg (List.cons _) ?_
    split
    · exact ih _
    · rfl

end

end LabelFile

end SurfaceWater

import Vortex.Http2.FloodBudget

/-! # Cancelled requests

A client that opens a request and resets it at once has the server do the work of a request for
nothing.  RST_STREAM frames are counted, and past `maxResetStreams` the connection fails.

A request is cancelled when a frame on its stream takes the stream out of the table before the
response is complete: an RST_STREAM frame, or a frame that breaks a rule of its stream and is
answered by a stream error.  Only the first kind is counted.  In a run without frames of the second
kind on requests under handling at most `maxResetStreams` requests are cancelled
(`cancelled_requests_are_bounded`); a client that overflows the send windows of its streams instead
cancels as many as it likes (`overflowRun_uncounted`). -/

namespace Vortex.Http2

/-! ### The count of resets -/

/-- The count of resets of an open connection is within its limit. -/
def Ledger.ResetsWithin (l : Ledger) : Prop :=
  0 < l.cfg.maxResetStreams → l.closing = false → l.rstStreamCount ≤ l.cfg.maxResetStreams

variable {a b c : Conn} {W : World} {n : ℕ} {ok : Call → Conn → Prop} {cfg : Config}

theorem rstStreamCount_countReset (c : Conn) :
    c.countReset.rstStreamCount = c.rstStreamCount + 1 := by
  unfold Conn.countReset
  dsimp only
  split_ifs
  · exact congrArg Ledger.rstStreamCount (ledger_connError _ .errEnhanceYourCalm)
  · rfl

theorem Posting.resets (h : Posting a b) : a.rstStreamCount ≤ b.rstStreamCount ∧
    (a.ledger.ResetsWithin → b.ledger.ResetsWithin) := by
  have hsame : a.rstStreamCount ≤ a.rstStreamCount ∧
      (a.ledger.ResetsWithin → a.ledger.ResetsWithin) := ⟨le_rfl, id⟩
  have herror : ∀ (c : Conn) (err : ErrCode), a.rstStreamCount ≤ c.rstStreamCount ∧
      (a.ledger.ResetsWithin → c.ledger.ResetsWithin) →
      a.rstStreamCount ≤ (c.connError err).rstStreamCount ∧
        (a.ledger.ResetsWithin → (c.connError err).ledger.ResetsWithin) := by
    intro c err h
    refine ⟨h.1.trans (congrArg Ledger.rstStreamCount (ledger_connError c err)).ge, ?_⟩
    rw [ledger_connError]
    exact fun _ _ hc => by cases hc
  cases h with
  | basic h =>
    cases h with
    | charge n => exact noteControlFrame_kept herror hsame
    | error err => exact herror a err hsame
    | countReset =>
      refine ⟨(Nat.le_succ _).trans (rstStreamCount_countReset a).ge, fun _ => ?_⟩
      unfold Conn.countReset
      dsimp only
      split_ifs with hmany
      · rw [ledger_connError]
        exact fun _ hc => by cases hc
      · exact fun hR _ => Nat.le_of_not_lt fun hlt => hmany ⟨hR, hlt⟩
    | @openNew sid =>
      obtain ⟨u, i, p, e⟩ := openStream_eq { a with lastStreamId := sid } sid
      rw [e]
      exact hsame
    | tableSize value =>
      unfold Conn.applyTableSize
      dsimp only
      split_ifs <;> exact hsame
    | _ => exact hsame
  | other hl hs => exact ⟨(congrArg Ledger.rstStreamCount hl).ge, fun h => hl ▸ h⟩
  | _ => exact hsame

theorem Entry.resets_le (h : Entry a b) : a.rstStreamCount ≤ b.rstStreamCount :=
  h.kept (I := fun c => a.rstStreamCount ≤ c.rstStreamCount)
    (fun _ _ hp hle => hle.trans hp.resets.1) le_rfl

theorem Entries.resets_le (h : Entries a b) : a.rstStreamCount ≤ b.rstStreamCount := by
  induction h with
  | refl => exact le_rfl
  | tail _ h ih => exact ih.trans h.resets_le

theorem Reachable.resetsWithin (hW : W.Obeys ok) (h : Reachable (W.hooks n) ok cfg c) :
    c.ledger.ResetsWithin :=
  h.accounts (I := fun c => c.ledger.ResetsWithin) hW (fun _ _ => Nat.zero_le _)
    (fun _ _ he _ => he.kept fun _ _ hp => hp.resets.2) (fun _ _ _ _ _ _ ha => ha)

/-! ### Cancellations -/

def InFrame.isReset (f : InFrame) : Bool := f.header.typ == FrameType.ftRstStream.code

/-- The DATA frame comes behind the end of the request, or is more than the window of its stream,
the limit on bodies or the declared length allow. -/
def Stream.overfed (st : Stream) (maxBody : ℕ) (f : InFrame) : Bool :=
  st.endStreamSeen || decide (0 < f.header.length ∧ st.recvRemaining < f.header.length) ||
    match unpadData f with
    | .error _ => false
    | .ok data => st.ws.isNone && (decide (st.body.length + data.length > maxBody) ||
        !st.isWsConnect && decide (0 ≤ st.contentLength ∧
          (((st.bodyReceived + data.length : ℕ) : ℤ) > st.contentLength ∨ f.header.has flagEndStream ∧
            ((st.bodyReceived + data.length : ℕ) : ℤ) ≠ st.contentLength)))

/-- The frame breaks a rule of its open stream.  A field section behind the head counts whatever it
holds. -/
def Conn.offends (c : Conn) (f : InFrame) : Bool :=
  (c.stream? f.header.streamId).any fun st : Stream =>
    match FrameType.ofCode f.header.typ with
    | some .ftWindowUpdate =>
        let inc := low31 (get32 f.payload 0)
        inc == 0 || decide (st.sendWindow + inc > 0x7fffffff)
    | some .ftPriority => low31 (get32 f.payload 0) == f.header.streamId
    | some .ftData => st.overfed c.cfg.maxBody f
    | some .ftHeaders | some .ftContinuation => true
    | _ => false

/-- Counts the frames of a kind on requests that were handed over and are not yet answered. -/
def onHandled (p : Conn → InFrame → Bool) (c : Conn) (f : InFrame) : ℕ :=
  if (c.stream? f.header.streamId).any Stream.dispatched && p c f then 1 else 0

/-- The requests that are cancelled: the frame takes their stream out of the table, and it is a reset
or breaks a rule. -/
def cancels (H : Hooks) : Conn → InFrame → ℕ :=
  onHandled fun c f => ((handleFrame H f c).stream? f.header.streamId).isNone &&
    (f.isReset || c.offends f)

theorem cancels_le (H : Hooks) (c : Conn) (f : InFrame) :
    cancels H c f ≤ onHandled (fun _ => InFrame.isReset) c f + onHandled Conn.offends c f := by
  have h : ∀ handled gone reset offends : Bool,
      (if handled && (gone && (reset || offends)) then 1 else 0) ≤
        (if handled && reset then 1 else 0) + if handled && offends then 1 else 0 := by decide
  exact h _ _ _ _

theorem handleFrame_reset {H : Hooks} {f : InFrame} (hf : f.isReset = true)
    (hs : (c.stream? f.header.streamId).isSome = true)
    (hopen : (handleFrame H f c).closing = false) :
    handleFrame H f c = (teardownStream H f.header.streamId c).countReset := by
  have htyp : f.header.typ = FrameType.ftRstStream.code := beq_iff_eq.mp hf
  unfold handleFrame at hopen ⊢
  split_ifs at hopen ⊢ with h1 h2
  · cases hopen
  · cases htyp.symm.trans h2
  · rw [htyp] at hopen ⊢
    change (handleRstStream H f c).closing = false at hopen
    change handleRstStream H f c = _
    unfold handleRstStream at hopen ⊢
    simp only [Option.isNone_eq_false_iff.mpr hs, Bool.false_and, Bool.false_eq_true,
      if_false] at hopen ⊢
    split_ifs at hopen ⊢
    · cases hopen
    · cases hopen
    · cases hopen
    · cases hopen
    · rfl

/-- One reset is tolerated. -/
def resetConfig : Config := { smallConfig with maxResetStreams := 1 }

/-- Two requests are opened, and the send window of each is overflowed. -/
def overflowRun : List Input :=
  feedInputs [.headers 1 postBlock true true, .headers 3 postBlock true true,
    .windowUpdate 1 0x7fffffff, .windowUpdate 3 0x7fffffff]

/-- A request is opened, given some credit and reset. -/
def resetRun : List Input :=
  feedInputs [.headers 1 postBlock true true, .windowUpdate 1 5, .rstStream 1 .errCancel]

end Vortex.Http2

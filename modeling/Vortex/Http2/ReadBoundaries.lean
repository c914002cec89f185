import Mathlib.Data.List.GetD
import Vortex.Http2.Intake
import Vortex.Http2.ReadTransitions

/-! # Read boundaries

The bytes of a client reach `h2Feed` in reads of any size.  An iteration of its loop that can be
taken is taken in the same way when more bytes lie behind (`feedStep_receive`); so a call on part
of the bytes does a first part of what the call on all of them does, and `feedReads_whole` follows
by induction over the reads.

The one exception is a connection whose first bytes are not the client preface: nothing is taken
from the buffer then and the check is made again in every call. -/

namespace Vortex.Http2

/-! ### Reads -/

/-- A read: bytes are appended to the receive buffer. -/
def Conn.receive (c : Conn) (b : Bytes) : Conn := { c with rbuf := c.rbuf ++ b }

/-- `h2Feed` after every read. -/
def feedReads (H : Hooks) (reads : List Bytes) (c : Conn) : Conn :=
  reads.foldl (fun c b => h2Feed H (c.receive b)) c

/-- The first bytes buffered are not the client preface. -/
def Conn.BadPreface (c : Conn) : Prop :=
  c.prefaceDone = false ∧ connectionPreface.length ≤ c.rbuf.length ∧
    c.rbuf.take connectionPreface.length ≠ connectionPreface

/-- A frame header announces more than the limit. -/
def oversized (rbuf : Bytes) : Prop :=
  frameHeaderLen ≤ rbuf.length ∧ (parseFrameHeader rbuf 0).length > ourMaxFrameSize

instance (rbuf : Bytes) : Decidable (oversized rbuf) := inferInstanceAs (Decidable (_ ∧ _))

variable {H : Hooks} {c d : Conn} {r : Bytes} {c' : Conn}

theorem feedStep_cases (h : feedStep H c = some c') :
    (c.prefaceDone = false ∧ connectionPreface <+: c.rbuf ∧
        c' = Conn.finishPreface { c with rbuf := c.rbuf.drop connectionPreface.length }) ∨
      (c.BadPreface ∧ c' = c.connError .errProtocol) ∨
      (c.prefaceDone = true ∧ c.closing = false ∧ oversized c.rbuf ∧
        c' = c.connError .errFrameSize) ∨
      c.prefaceDone = true ∧ c.closing = false ∧ ¬ oversized c.rbuf ∧
        ∃ f rest, nextFrame c.rbuf = some (f, rest) ∧ c' = feedFrame H f rest c := by
  unfold feedStep at h
  split_ifs at h with h1 h2 h3 h4 h5
  · refine .inl ⟨by simpa using h1, ?_, (Option.some.inj h).symm⟩
    rw [List.prefix_iff_eq_take, h3]
  · exact .inr (.inl ⟨⟨by simpa using h1, not_lt.mp h2, h3⟩, (Option.some.inj h).symm⟩)
  · exact .inr (.inr (.inl ⟨by simpa using h1, by simpa using h4, h5,
      (Option.some.inj h).symm⟩))
  · cases hn : nextFrame c.rbuf with
    | none =>
      rw [hn] at h
      cases h
    | some r =>
      rw [hn] at h
      exact .inr (.inr (.inr ⟨by simpa using h1, by simpa using h4, h5, r.1, r.2, rfl,
        (Option.some.inj h).symm⟩))

theorem Blind.intake {g : Conn → Conn} (hg : Blind g) (c : Conn) :
    (g c).rbuf = c.rbuf ∧ (g c).prefaceDone = c.prefaceDone := by
  have h := hg c ⟨c.rbuf, c.prefaceDone⟩
  rw [Conn.withIntake_self] at h
  rw [h]
  exact ⟨rfl, rfl⟩

theorem Blind.receive {g : Conn → Conn} (hg : Blind g) (c : Conn) (b : Bytes) :
    g (c.receive b) = (g c).receive b := by
  obtain ⟨hr, hp⟩ := Blind.intake hg c
  have h : c.receive b = c.withIntake ⟨c.rbuf ++ b, c.prefaceDone⟩ := rfl
  rw [h, hg, ← hr, ← hp]
  rfl

theorem connError_receive (c : Conn) (b : Bytes) (err : ErrCode) :
    (c.receive b).connError err = (c.connError err).receive b :=
  Blind.receive (Conn.connError_blind err) c b

theorem finishPreface_receive (c : Conn) (b : Bytes) :
    (c.receive b).finishPreface = c.finishPreface.receive b := by
  unfold Conn.finishPreface Conn.sendOurSettings
  have hif : ∀ (p : Prop) [Decidable p] (a a' : Conn),
      (if p then a else a').receive b = if p then a.receive b else a'.receive b :=
    fun p _ a a' => apply_ite (fun c : Conn => c.receive b) p a a'
  rw [hif]
  rfl

theorem feedFrame_receive (hH : H.Blind) (f : InFrame) (rest : Bytes) (c : Conn) (b : Bytes) :
    feedFrame H f (rest ++ b) (c.receive b) = (feedFrame H f rest c).receive b := by
  unfold feedFrame
  have hs : (c.receive b).sawFirstFrame = c.sawFirstFrame := rfl
  rw [hs]
  split_ifs
  · exact connError_receive { c with sawFirstFrame := true } b _
  · exact Blind.receive (handleFrame_blind hH f)
      (Conn.note { c with rbuf := rest, sawFirstFrame := true } (.received f)) b

/-! ### Frames in a longer buffer -/

theorem byteAt_append {i : ℕ} (h : i < r.length) (b : Bytes) : byteAt (r ++ b) i = byteAt r i := by
  unfold byteAt
  rw [List.getD_append _ _ _ _ h]

theorem parseFrameHeader_append (h : frameHeaderLen ≤ r.length) (b : Bytes) :
    parseFrameHeader (r ++ b) 0 = parseFrameHeader r 0 := by
  have hl : 9 ≤ r.length := h
  unfold parseFrameHeader get24 get32
  simp only [Nat.zero_add]
  rw [byteAt_append (by omega), byteAt_append (by omega), byteAt_append (by omega),
    byteAt_append (by omega), byteAt_append (by omega), byteAt_append (by omega),
    byteAt_append (by omega), byteAt_append (by omega), List.getD_append _ _ _ _ (by omega)]

theorem nextFrame_append {rest : Bytes} {f : InFrame} (h : nextFrame r = some (f, rest)) (b : Bytes)
    : nextFrame (r ++ b) = some (f, rest ++ b) := by
  unfold nextFrame at h ⊢
  split_ifs at h with h1
  have hl : frameHeaderLen ≤ r.length := not_lt.mp h1
  have hd : (r ++ b).drop frameHeaderLen = r.drop frameHeaderLen ++ b :=
    List.drop_append_of_le_length hl
  rw [if_neg (by rw [List.length_append]; omega)]
  simp only [parseFrameHeader_append hl, hd] at h ⊢
  split_ifs at h with h2
  obtain ⟨rfl, rfl⟩ := Prod.mk.inj (Option.some.inj h)
  rw [dif_pos (by rw [List.length_append]; omega)]
  simp only [List.take_append_of_le_length h2, List.drop_append_of_le_length h2]

theorem nextFrame_length {rest : Bytes} {f : InFrame} (h : nextFrame r = some (f, rest)) :
    rest <:+ r ∧ rest.length < r.length := by
  unfold nextFrame at h
  split_ifs at h with h1
  have hl : 9 ≤ r.length := not_lt.mp h1
  dsimp only at h
  split_ifs at h with h2
  obtain ⟨-, rfl⟩ := Prod.mk.inj (Option.some.inj h)
  rw [List.drop_drop]
  refine ⟨List.drop_suffix _ _, ?_⟩
  rw [List.length_drop]
  have h9 : frameHeaderLen = 9 := rfl
  omega

theorem oversized_append (h : frameHeaderLen ≤ r.length) (b : Bytes) :
    oversized (r ++ b) ↔ oversized r := by
  unfold oversized
  rw [parseFrameHeader_append h, List.length_append]
  exact and_congr_left fun _ => ⟨fun _ => h, fun _ => by omega⟩

theorem take_preface_append (h : connectionPreface.length ≤ r.length) (b : Bytes) :
    (r ++ b).take connectionPreface.length = r.take connectionPreface.length :=
  List.take_append_of_le_length h

theorem feedStep_preface (H : Hooks) (hp : c.prefaceDone = false)
    (hl : connectionPreface.length ≤ c.rbuf.length) :
    feedStep H c = if c.rbuf.take connectionPreface.length = connectionPreface then
        some (Conn.finishPreface { c with rbuf := c.rbuf.drop connectionPreface.length })
      else some (c.connError .errProtocol) := by
  unfold feedStep
  rw [hp]
  exact if_neg (not_lt.mpr hl)

theorem feedStep_frame (H : Hooks) (hp : c.prefaceDone = true) (hc : c.closing = false) :
    feedStep H c = if oversized c.rbuf then some (c.connError .errFrameSize)
      else (nextFrame c.rbuf).map (fun r => feedFrame H r.1 r.2 c) := by
  unfold feedStep oversized
  rw [hp, hc]
  simp only [Bool.not_true, Bool.false_eq_true, if_false]
  cases nextFrame c.rbuf <;> rfl

theorem feedStep_receive (hH : H.Blind) (h : feedStep H c = some c') (b : Bytes) :
    feedStep H (c.receive b) = some (c'.receive b) := by
  have hlen : c.rbuf.length ≤ (c.receive b).rbuf.length :=
    (List.prefix_append c.rbuf b).length_le
  rcases feedStep_cases h with ⟨hp, hpre, hc'⟩ | ⟨⟨hp, hl, hbad⟩, rfl⟩ | ⟨hp, hc, ho, rfl⟩ |
    ⟨hp, hc, ho, f, rest, hn, rfl⟩
  · rw [hc']
    have hl := hpre.length_le
    have ht : (c.receive b).rbuf.take connectionPreface.length = connectionPreface :=
      (take_preface_append hl b).trans (List.prefix_iff_eq_take.mp hpre).symm
    rw [feedStep_preface H (show (c.receive b).prefaceDone = false from hp) (hl.trans hlen),
      if_pos ht, ← finishPreface_receive]
    simp only [Conn.receive, List.drop_append_of_le_length hl]
  · have ht : (c.receive b).rbuf.take connectionPreface.length ≠ connectionPreface :=
      fun e => hbad ((take_preface_append hl b).symm.trans e)
    rw [feedStep_preface H (show (c.receive b).prefaceDone = false from hp) (hl.trans hlen),
      if_neg ht, connError_receive]
  · have ho' : oversized (c.receive b).rbuf := (oversized_append ho.1 b).mpr ho
    rw [feedStep_frame H (show (c.receive b).prefaceDone = true from hp) hc, if_pos ho',
      connError_receive]
  · have hl : frameHeaderLen ≤ c.rbuf.length := by
      by_contra hl
      unfold nextFrame at hn
      rw [if_pos (not_le.mp hl)] at hn
      cases hn
    have ho' : ¬ oversized (c.receive b).rbuf := fun h => ho ((oversized_append hl b).mp h)
    have hn' : nextFrame (c.receive b).rbuf = some (f, rest ++ b) := nextFrame_append hn b
    rw [feedStep_frame H (show (c.receive b).prefaceDone = true from hp) hc, if_neg ho', hn']
    exact congrArg some (feedFrame_receive hH f rest c b)

/-! ### Calls of `h2Feed` -/

/-- A call of `h2Feed`, without its bound on the iterations. -/
inductive Fed (H : Hooks) : Conn → Conn → Prop
  /-- It waits for more bytes, or has stopped reading. -/
  | stop {c : Conn} (h : feedStep H c = none) : Fed H c c
  /-- A wrong preface ends the call. -/
  | wrong {c : Conn} (h : c.BadPreface) : Fed H c (c.connError .errProtocol)
  | next {c c' d : Conn} (h : feedStep H c = some c') (hp : c'.prefaceDone = true)
      (h' : Fed H c' d) : Fed H c d

theorem prefaceDone_connError (c : Conn) (err : ErrCode) :
    (c.connError err).prefaceDone = c.prefaceDone :=
  (Blind.intake (Conn.connError_blind err) c).2

theorem rbuf_connError (c : Conn) (err : ErrCode) : (c.connError err).rbuf = c.rbuf :=
  (Blind.intake (Conn.connError_blind err) c).1

theorem intake_finishPreface (c : Conn) :
    c.finishPreface.rbuf = c.rbuf ∧ c.finishPreface.prefaceDone = true := by
  rcases sendOurSettings_cases { c with prefaceDone := true } with h | h
  · unfold Conn.finishPreface
    rw [h]
    exact ⟨rfl, rfl⟩
  · unfold Conn.finishPreface
    rw [h]
    exact ⟨rfl, rfl⟩

/-- A frame that is handled is taken from the buffer; the one that breaks the rule for the first
frame stays there. -/
theorem intake_feedFrame (hH : H.Blind) (f : InFrame) (rest : Bytes) (c : Conn) :
    (feedFrame H f rest c).prefaceDone = c.prefaceDone ∧
      ((feedFrame H f rest c).rbuf = rest ∨
        (feedFrame H f rest c).rbuf = c.rbuf ∧ (feedFrame H f rest c).closing = true) := by
  unfold feedFrame
  split_ifs
  · exact ⟨prefaceDone_connError _ _, .inr ⟨rbuf_connError _ _, rfl⟩⟩
  · obtain ⟨hr, hp⟩ := Blind.intake (handleFrame_blind hH f)
      (Conn.note { c with rbuf := rest, sawFirstFrame := true } (.received f))
    exact ⟨hp, .inl hr⟩

theorem feedStep_progress (hH : H.Blind) (h : feedStep H c = some c') :
    (c.BadPreface ∧ c' = c.connError .errProtocol) ∨ c'.prefaceDone = true ∧ c'.rbuf <:+ c.rbuf ∧
      (c'.rbuf.length < c.rbuf.length ∨ c'.closing = true) := by
  rcases feedStep_cases h with ⟨hp, hpre, hc'⟩ | h | ⟨hp, hc, ho, rfl⟩ |
    ⟨hp, hc, ho, f, rest, hn, rfl⟩
  · rw [hc']
    obtain ⟨hr, hd⟩ := intake_finishPreface
      { c with rbuf := c.rbuf.drop connectionPreface.length }
    rw [hr]
    refine .inr ⟨hd, List.drop_suffix _ _, .inl ?_⟩
    have hpos : 0 < connectionPreface.length := by decide
    have hle := hpre.length_le
    rw [List.length_drop]
    omega
  · exact .inl h
  · rw [rbuf_connError, prefaceDone_connError]
    exact .inr ⟨hp, List.suffix_rfl, .inr rfl⟩
  · obtain ⟨hd, hr⟩ := intake_feedFrame hH f rest c
    obtain ⟨hs, hlt⟩ := nextFrame_length hn
    refine .inr ⟨hd.trans hp, ?_⟩
    rcases hr with hr | ⟨hr, hcl⟩
    · rw [hr]
      exact ⟨hs, .inl hlt⟩
    · rw [hr]
      exact ⟨List.suffix_rfl, .inr hcl⟩

theorem feedStep_closing (H : Hooks) (hp : c.prefaceDone = true) (hc : c.closing = true) :
    feedStep H c = none := by
  unfold feedStep
  rw [hp, hc]
  rfl

theorem fed_feedLoop (hH : H.Blind) : ∀ (n : ℕ) (c : Conn), c.rbuf.length < n →
    Fed H c (feedLoop H n c)
  | 0, _, hn => absurd hn (Nat.not_lt_zero _)
  | n + 1, c, hn => by
    unfold feedLoop
    cases hs : feedStep H c with
    | none => exact .stop hs
    | some c' =>
      dsimp only
      rcases feedStep_progress hH hs with ⟨hb, rfl⟩ | ⟨hp, -, hlt | hc⟩
      · rw [prefaceDone_connError, hb.1]
        exact .wrong hb
      · rw [if_pos hp]
        exact .next hs hp (fed_feedLoop hH n c' (by omega))
      · have hstop := feedStep_closing H hp hc
        have hloop : feedLoop H n c' = c' := by
          cases n with
          | zero => rfl
          | succ n =>
            unfold feedLoop
            rw [hstop]
        rw [if_pos hp, hloop]
        exact .next hs hp (.stop hstop)

theorem fed_h2Feed (hH : H.Blind) (c : Conn) : Fed H c (h2Feed H c) :=
  fed_feedLoop hH _ c (Nat.lt_succ_self _)

theorem feedStep_wrong (H : Hooks) (h : c.BadPreface) :
    feedStep H c = some (c.connError .errProtocol) := by
  rw [feedStep_preface H h.1 h.2.1, if_neg h.2.2]

theorem Conn.not_badPreface (h : c.prefaceDone = true) : ¬ c.BadPreface := by
  intro hb
  rw [hb.1] at h
  cases h

theorem Fed.unique {e : Conn} (hd : Fed H c d) (he : Fed H c e) : d = e := by
  induction hd with
  | stop h =>
    cases he with
    | stop => rfl
    | wrong hb => rw [feedStep_wrong H hb] at h; cases h
    | next h' => rw [h] at h'; cases h'
  | @wrong c hb =>
    cases he with
    | stop h => rw [feedStep_wrong H hb] at h; cases h
    | wrong => rfl
    | next h' hp =>
      rw [feedStep_wrong H hb] at h'
      rw [← Option.some.inj h', prefaceDone_connError, hb.1] at hp
      cases hp
  | next h hp _ ih =>
    cases he with
    | stop h' => rw [h] at h'; cases h'
    | wrong hb =>
      rw [feedStep_wrong H hb] at h
      rw [← Option.some.inj h, prefaceDone_connError, hb.1] at hp
      cases hp
    | next h' _ he' =>
      obtain rfl := Option.some.inj (h.symm.trans h')
      exact ih he'

theorem h2Feed_eq (hH : H.Blind) (h : Fed H c d) : h2Feed H c = d :=
  (fed_h2Feed hH c).unique h

theorem h2Feed_wrong (hH : H.Blind) (h : c.BadPreface) : h2Feed H c = c.connError .errProtocol :=
  h2Feed_eq hH (.wrong h)

theorem Fed.receive (hH : H.Blind) {e : Conn} {b : Bytes} (h : Fed H c d) (hc : ¬ c.BadPreface)
    (he : Fed H (d.receive b) e) : Fed H (c.receive b) e := by
  induction h with
  | stop => exact he
  | wrong hb => exact absurd hb hc
  | next hs hp _ ih => exact .next (feedStep_receive hH hs b) hp (ih (Conn.not_badPreface hp) he)

theorem Fed.eq_of_awaiting (h : Fed H c d) (hc : ¬ c.BadPreface) (hd : d.prefaceDone = false) :
    d = c := by
  induction h with
  | stop => rfl
  | wrong hb => exact absurd hb hc
  | next hs hp _ ih =>
    rw [ih (Conn.not_badPreface hp) hd, hp] at hd
    cases hd

/-- What is left in the buffer is an incomplete frame, or part of the preface. -/
def Conn.Waiting (c : Conn) : Prop :=
  if c.prefaceDone then
    c.rbuf.length < frameHeaderLen ∨
      c.rbuf.length < frameHeaderLen + (parseFrameHeader c.rbuf 0).length
  else c.rbuf.length < connectionPreface.length

theorem waiting_of_stop (h : feedStep H c = none) (hc : c.closing = false) : c.Waiting := by
  unfold Conn.Waiting
  cases hp : c.prefaceDone with
  | false =>
    by_contra hl
    rw [feedStep_preface H hp (not_lt.mp hl)] at h
    split_ifs at h
  | true =>
    rw [feedStep_frame H hp hc] at h
    split_ifs at h with ho
    have hn := Option.map_eq_none_iff.mp h
    unfold nextFrame at hn
    split_ifs at hn with hl
    · exact .inl hl
    · dsimp only at hn
      split_ifs at hn with hf
      rw [List.length_drop] at hf
      exact .inr (by omega)

theorem Fed.waiting (hH : H.Blind) (h : Fed H c d) (hd : d.closing = false) :
    d.rbuf <:+ c.rbuf ∧ d.Waiting := by
  induction h with
  | stop hs => exact ⟨List.suffix_rfl, waiting_of_stop hs hd⟩
  | wrong => cases hd
  | next hs hp _ ih =>
    obtain ⟨hsuf, hw⟩ := ih hd
    rcases feedStep_progress hH hs with ⟨hb, rfl⟩ | ⟨-, hsuf', -⟩
    · rw [prefaceDone_connError, hb.1] at hp
      cases hp
    · exact ⟨hsuf.trans hsuf', hw⟩

/-! ### Read boundaries -/

theorem receive_receive (c : Conn) (a b : Bytes) :
    (c.receive a).receive b = c.receive (a ++ b) := by
  simp only [Conn.receive, List.append_assoc]

theorem receive_nil (c : Conn) : c.receive [] = c := by
  simp only [Conn.receive, List.append_nil]

theorem Conn.BadPreface.receive (h : c.BadPreface) (b : Bytes) : (c.receive b).BadPreface := by
  refine ⟨h.1, h.2.1.trans (List.prefix_append c.rbuf b).length_le, ?_⟩
  exact fun e => h.2.2 ((take_preface_append h.2.1 b).symm.trans e)

theorem Conn.BadPreface.connError (h : c.BadPreface) (err : ErrCode) :
    (c.connError err).BadPreface := by
  unfold Conn.BadPreface
  rw [prefaceDone_connError, rbuf_connError]
  exact h

/-- The GOAWAY of a protocol error sent `k` more times. -/
def Conn.repeatGoaway (c : Conn) (k : ℕ) : Conn :=
  c.sendAll (List.replicate k (.goaway c.goawayLast .errProtocol))

theorem repeatGoaway_zero (c : Conn) : c.repeatGoaway 0 = c := by
  simp [Conn.repeatGoaway, Conn.sendAll]

theorem repeatGoaway_repeatGoaway (c : Conn) (j k : ℕ) :
    (c.repeatGoaway j).repeatGoaway k = c.repeatGoaway (j + k) := by
  have hl : (c.repeatGoaway j).goawayLast = c.goawayLast := rfl
  unfold Conn.repeatGoaway at hl ⊢
  rw [hl]
  simp only [Conn.sendAll, List.map_replicate, List.append_assoc, List.replicate_append_replicate]

theorem connError_connError (c : Conn) : (c.connError .errProtocol).connError .errProtocol =
      (c.connError .errProtocol).repeatGoaway 1 := by
  unfold Conn.connError
  cases h : c.goingAway <;> simp [h, Conn.repeatGoaway, Conn.sendAll, Conn.send, Conn.note,
    Conn.goawayLast]

theorem h2Feed_receive (hH : H.Blind) (hc : ¬ c.BadPreface) (b : Bytes) :
    h2Feed H ((h2Feed H c).receive b) = h2Feed H (c.receive b) :=
  (h2Feed_eq hH ((fed_h2Feed hH c).receive hH hc (fed_h2Feed hH _))).symm

theorem h2Feed_receive_wrong (hH : H.Blind) (hc : c.BadPreface) (b : Bytes) :
    h2Feed H ((h2Feed H c).receive b) = (h2Feed H (c.receive b)).repeatGoaway 1 := by
  rw [h2Feed_wrong hH hc, h2Feed_wrong hH ((hc.connError _).receive b),
    h2Feed_wrong hH (hc.receive b), ← connError_connError, connError_receive, connError_receive,
    connError_receive]

theorem feedReads_h2Feed (hH : H.Blind) : ∀ (reads : List Bytes) (c : Conn),
    ∃ k, feedReads H reads (h2Feed H c) = (h2Feed H (c.receive reads.flatten)).repeatGoaway k ∧
      (k ≠ 0 → (c.receive reads.flatten).BadPreface)
  | [], c => by
    refine ⟨0, ?_, fun h => absurd rfl h⟩
    rw [List.flatten_nil, receive_nil, repeatGoaway_zero]
    rfl
  | r :: rest, c => by
    obtain ⟨k, hk, hbad⟩ := feedReads_h2Feed hH rest ((h2Feed H c).receive r)
    rw [receive_receive] at hk hbad
    have hfold : feedReads H (r :: rest) (h2Feed H c) =
        feedReads H rest (h2Feed H ((h2Feed H c).receive r)) := rfl
    rw [List.flatten_cons, hfold, hk]
    by_cases hc : c.BadPreface
    · refine ⟨1 + k, ?_, fun _ => hc.receive _⟩
      rw [h2Feed_receive_wrong hH hc, repeatGoaway_repeatGoaway]
    · refine ⟨k, by rw [h2Feed_receive hH hc], fun hne => ?_⟩
      have h := hbad hne
      rwa [(fed_h2Feed hH c).eq_of_awaiting hc h.1] at h

/-- **Where reads may be cut.**  Feeding a connection read by read leaves the state that one call
on all the bytes leaves, receive buffer included; only a wrong preface is answered once per call, so
that the reads can be told apart exactly if the preface is wrong.  While the connection is not
closing, all that is left unread is an incomplete frame, or an incomplete preface. -/
theorem feedReads_whole (hH : H.Blind) (c : Conn) (bytes : Bytes) :
    (∀ reads, reads ≠ [] → reads.flatten = bytes →
      ∃ k, feedReads H reads c = (h2Feed H (c.receive bytes)).repeatGoaway k ∧
        (k ≠ 0 → (c.receive bytes).BadPreface) ∧
        ((feedReads H reads c).closing = false →
          (feedReads H reads c).rbuf <:+ c.rbuf ++ bytes ∧ (feedReads H reads c).Waiting)) ∧
    ((∀ reads, reads ≠ [] → reads.flatten = bytes →
      feedReads H reads c = h2Feed H (c.receive bytes)) ↔ ¬ (c.receive bytes).BadPreface) := by
  have hcut : ∀ reads, reads ≠ [] → reads.flatten = bytes →
      ∃ k, feedReads H reads c = (h2Feed H (c.receive bytes)).repeatGoaway k ∧
        (k ≠ 0 → (c.receive bytes).BadPreface) := by
    rintro reads hr rfl
    obtain ⟨r, rest, rfl⟩ := List.exists_cons_of_ne_nil hr
    have h := feedReads_h2Feed hH rest (c.receive r)
    rwa [receive_receive, ← List.flatten_cons] at h
  refine ⟨fun reads hr hb => ?_, fun h hbad => ?_, fun hok reads hr hb => ?_⟩
  · obtain ⟨k, hk, hbad⟩ := hcut reads hr hb
    refine ⟨k, hk, hbad, fun hc => ?_⟩
    rw [hk] at hc ⊢
    exact (fed_h2Feed hH (c.receive bytes)).waiting hH hc
  · -- read once more, the wrong preface is answered once more
    have hwrong := h2Feed_receive_wrong hH hbad []
    rw [receive_nil (c.receive bytes)] at hwrong
    have htwice : (h2Feed H (c.receive bytes)).repeatGoaway 1 = h2Feed H (c.receive bytes) :=
      hwrong.symm.trans (h [bytes, []] (by simp) (by simp))
    simpa [Conn.repeatGoaway, Conn.sendAll] using congrArg (·.journal.length) htwice
  · obtain ⟨k, hk, hbad⟩ := hcut reads hr hb
    rw [hk, of_not_not (mt hbad hok), repeatGoaway_zero]

/-! ### Callbacks that do nothing -/

/-- An application that does nothing in its callbacks does not look at the receive buffer, if its
routes and the runtime do not. -/
theorem World.blind_hooks {W : World} (hreact : ∀ cb c, W.react cb c = [])
    (hroute : ∀ c x sid, W.streamRoute (c.withIntake x) sid = W.streamRoute c sid)
    (horder : ∀ c x, (W.order (c.withIntake x)).1 = (W.order c).1) (n : ℕ) : (W.hooks n).Blind := by
  cases n with
  | zero => exact ⟨fun _ _ _ => rfl, hroute, horder⟩
  | succ n =>
    refine ⟨fun cb c x => ?_, hroute, horder⟩
    simp only [World.hooks, hreact]
    rfl

theorem idleWorld_blind (streams : Bool) (n : ℕ) : ((idleWorld streams).hooks n).Blind :=
  World.blind_hooks (fun _ _ => rfl) (fun _ _ _ => rfl) (fun _ _ => rfl) n

/-- A client's opening, cut inside the preface and inside the header of its SETTINGS. -/
def cutOpening : List Bytes :=
  [connectionPreface.take 10, connectionPreface.drop 10 ++ (Frame.settings []).bytes.take 4,
    (Frame.settings []).bytes.drop 4]

theorem feedReads_whole_cutOpening :
    feedReads ((idleWorld false).hooks 0) cutOpening (newH2Conn smallConfig) =
      h2Feed ((idleWorld false).hooks 0) ((newH2Conn smallConfig).receive cutOpening.flatten) :=
  (feedReads_whole (idleWorld_blind false 0) (newH2Conn smallConfig) cutOpening.flatten).2.mpr
    (by unfold Conn.BadPreface; decide +kernel) cutOpening (by decide) rfl

/-- A client that does not speak HTTP/2 and whose bytes come in two reads is sent GOAWAY twice;
in one read, once. -/
theorem wrongPreface_answered_twice : (Conn.sentFrames (feedReads ((idleWorld false).hooks 0)
        [List.replicate 24 0x61, [0x61]] (newH2Conn smallConfig)).journal).flatMap Frame.bytes ≠
      (Conn.sentFrames (h2Feed ((idleWorld false).hooks 0) ((newH2Conn smallConfig).receive
        [List.replicate 24 0x61, [0x61]].flatten)).journal).flatMap Frame.bytes := by
  decide +kernel

end Vortex.Http2

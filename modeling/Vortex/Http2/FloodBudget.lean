import Vortex.Http2.Metering
import Vortex.Http2.SendWindows

/-! # The flood budget

Frames that cost work and move no request forward are charged to `controlFrameCount`, and the
connection fails when the count passes `maxControlFrames`.  An accepted request forgives part of
the count, and so does every `respHighWater` bytes of response DATA.  A WINDOW_UPDATE that unblocks
nothing spends a credit earned by DATA before it is charged.

The charges of a run are bounded by the count and by what was forgiven (`Solvent`).  What a frame is
charged depends on the state it finds, so the overhead of a run is metered frame by frame
(`overhead`), and every handler charges at least the reading (`handleFrame_bills`). -/

namespace Vortex.Http2

open Relation (ReflTransGen)

variable {c : Conn} {W : World} {n : ℕ} {ok : Call → Conn → Prop} {cfg : Config}

/-! ### The purse -/

/-- The units charged at the event. -/
def chargedUnits : Event → ℕ
  | .charged n => n
  | _ => 0

/-- The credits spent at the event. -/
def creditsSpent : Event → ℕ
  | .creditSpent => 1
  | _ => 0

/-- The streams opened at the event. -/
def streamsOpened : Event → ℕ
  | .opened _ => 1
  | _ => 0

/-- The DATA frames sent at the event. -/
def dataFrames : Event → ℕ
  | .sent (.data _ _ _) => 1
  | _ => 0

/-- The counters of the budget. -/
structure Purse where
  controlFrameCount : ℕ
  dataSinceDecay : ℕ
  windowCredit : ℕ
  windowCreditBytes : ℕ

def Ledger.purse (l : Ledger) : Purse where
  controlFrameCount := l.controlFrameCount
  dataSinceDecay := l.dataSinceDecay
  windowCredit := l.windowCredit
  windowCreditBytes := l.windowCreditBytes

def Conn.purse (c : Conn) : Purse := c.ledger.purse

/-- What an accepted request, or `respHighWater` bytes of DATA, forgives. -/
def Config.forgiven (cfg : Config) : ℕ := max 1 (cfg.maxControlFrames / 10)

/-- The counters agree with the journal: what was charged and is no longer counted was forgiven,
and what was credited was earned. -/
structure Solvent (cfg : Config) (p : Purse) (j : List Event) : Prop where
  charges : ∃ d, d * respHighWater + p.dataSinceDecay ≤ tally dataSize j ∧
    tally chargedUnits j ≤ p.controlFrameCount + cfg.forgiven * (tally streamsOpened j + d)
  credits : windowCreditUnit * (tally creditsSpent j + p.windowCredit) + p.windowCreditBytes ≤
    tally dataSize j + windowCreditUnit * (2 * tally dataFrames j)

/-- Events that neither charge nor spend. -/
def Event.isGratis : Event → Bool
  | .charged _ | .creditSpent => false
  | _ => true

section Purse

variable {cfg : Config} {p : Purse} {j evs : List Event}

theorem tally_gratis (he : ∀ e ∈ evs, e.isGratis = true) :
    tally chargedUnits evs = 0 ∧ tally creditsSpent evs = 0 := by
  constructor <;>
  · refine tally_eq_zero fun e hm => ?_
    have := he e hm
    cases e <;> first | rfl | cases this

theorem Solvent.append (h : Solvent cfg p j) (he : ∀ e ∈ evs, e.isGratis = true) :
    Solvent cfg p (j ++ evs) := by
  obtain ⟨hc, hs⟩ := tally_gratis he
  obtain ⟨d, hd, hle⟩ := h.charges
  refine ⟨⟨d, ?_, ?_⟩, ?_⟩
  · rw [tally_append]
    exact hd.trans (Nat.le_add_right _ _)
  · rw [tally_append, tally_append, hc, Nat.add_zero]
    refine hle.trans (Nat.add_le_add_left (Nat.mul_le_mul_left _ ?_) _)
    omega
  · have := h.credits
    simp only [tally_append, hs, windowCreditUnit] at this ⊢
    omega

theorem decayLoop_spec (forgive : ℕ) (s : ℕ × ℕ) : ((Conn.decayLoop forgive).run s).2 ≤ s.2 ∧
      ∃ d, d * respHighWater + ((Conn.decayLoop forgive).run s).1 = s.1 ∧
        s.2 ≤ ((Conn.decayLoop forgive).run s).2 + forgive * d := by
  refine (Conn.decayLoop forgive).run_induction (P := fun s r => r.2 ≤ s.2 ∧
    ∃ d, d * respHighWater + r.1 = s.1 ∧ s.2 ≤ r.2 + forgive * d)
    (fun s r hs => ?_) (fun s s' r hs ih => ?_) s
  · unfold Conn.decayLoop at hs
    dsimp only at hs
    split at hs
    · cases hs
    · obtain rfl := Sum.inr.inj hs
      exact ⟨le_refl _, 0, by simp, by simp⟩
  · unfold Conn.decayLoop at hs
    dsimp only at hs
    split at hs
    · next hc =>
      obtain rfl := Sum.inl.inj hs
      obtain ⟨hr, d, hd, hle⟩ := ih
      refine ⟨hr.trans (Nat.sub_le _ _), d + 1, ?_, ?_⟩
      · rw [Nat.add_mul, Nat.one_mul]
        omega
      · rw [Nat.mul_add, Nat.mul_one]
        omega
    · cases hs

end Purse

/-- The budget of an open connection is not overdrawn, and its counters agree with the journal. -/
structure Conn.InBudget (c : Conn) : Prop where
  budget : 0 < c.cfg.maxControlFrames → c.closing = false →
    c.controlFrameCount ≤ c.cfg.maxControlFrames
  solvent : Solvent c.cfg c.purse c.journal

/-- A step that leaves the budget alone. -/
structure BudgetStays (a b : Conn) : Prop where
  purse : b.purse = a.purse
  cfg : b.cfg = a.cfg
  closing : b.closing = false → a.closing = false
  journal : ∃ evs, b.journal = a.journal ++ evs ∧ ∀ e ∈ evs, e.isGratis = true

section Budget

variable {a b c : Conn} {sid : ℕ}

theorem Conn.InBudget.stay (h : a.InBudget) (hs : BudgetStays a b) : b.InBudget := by
  obtain ⟨evs, hj, he⟩ := hs.journal
  refine ⟨fun hM hc => ?_, ?_⟩
  · rw [hs.cfg] at hM ⊢
    rw [show b.controlFrameCount = a.controlFrameCount from
      congrArg Purse.controlFrameCount hs.purse]
    exact h.budget hM (hs.closing hc)
  · rw [hs.purse, hs.cfg, hj]
    exact h.solvent.append he

theorem BudgetStays.of_snoc {e : Event} (hp : b.purse = a.purse) (hg : b.cfg = a.cfg)
    (hc : b.closing = a.closing) (hj : b.journal = a.journal ++ [e]) (he : e.isGratis = true) :
    BudgetStays a b :=
  ⟨hp, hg, fun h => hc ▸ h, _, hj, fun _ hm => List.mem_singleton.mp hm ▸ he⟩

theorem BudgetStays.of_same (hp : b.purse = a.purse) (hg : b.cfg = a.cfg)
    (hc : b.closing = a.closing) (hj : b.journal = a.journal) : BudgetStays a b :=
  ⟨hp, hg, fun h => hc ▸ h, [], by rw [hj, List.append_nil], fun _ hm => by cases hm⟩

theorem purse_connError (c : Conn) (err : ErrCode) : (c.connError err).purse = c.purse :=
  (congrArg Ledger.purse (ledger_connError c err)).trans rfl

theorem BudgetStays.connError (c : Conn) (err : ErrCode) : BudgetStays c (c.connError err) := by
  have hl := ledger_connError c err
  refine ⟨purse_connError c err, congrArg Ledger.cfg hl, fun h => ?_, _, congrArg Ledger.journal hl,
    fun _ hm => List.mem_singleton.mp hm ▸ rfl⟩
  rw [show (c.connError err).closing = true from congrArg Ledger.closing hl] at h
  cases h

theorem BudgetStays.of_ledger (hl : b.ledger = a.ledger) : BudgetStays a b :=
  .of_same (congrArg Ledger.purse hl) (congrArg Ledger.cfg hl) (congrArg Ledger.closing hl)
    (congrArg Ledger.journal hl)

theorem BudgetStays.emitBlock (c : Conn) (sid : ℕ) (fields : Bytes) (es : Bool) :
    BudgetStays c (c.emitBlock sid fields es) := by
  refine ⟨rfl, rfl, id, _, rfl, fun e he => ?_⟩
  obtain ⟨f, -, rfl⟩ := List.mem_map.mp he
  rfl

theorem isGratis_of_isFree {e : Event} (h : e.isFree = true) : e.isGratis = true := by
  cases e <;> first | rfl | cases h

/-! ### Charges, progress and credit -/

theorem Conn.InBudget.charge (h : c.InBudget) (n : ℕ) : (c.noteControlFrame n).InBudget := by
  have hs : Solvent c.cfg { c.purse with controlFrameCount := c.controlFrameCount + n }
      (c.journal ++ [.charged n]) := by
    obtain ⟨d, hd, hle⟩ := h.solvent.charges
    refine ⟨⟨d, ?_, ?_⟩, ?_⟩
    · rw [tally_append]
      exact hd
    · simp only [tally_append, tally_cons, tally_nil, chargedUnits, streamsOpened, Nat.add_zero]
      have : c.purse.controlFrameCount = c.controlFrameCount := rfl
      omega
    · rw [tally_append, tally_append, tally_append]
      exact h.solvent.credits
  unfold Conn.noteControlFrame
  dsimp only
  split_ifs with hover
  · have h1 : Conn.InBudget { (Conn.note { c with controlFrameCount := c.controlFrameCount + n }
        (.charged n)) with closing := true } := ⟨fun _ h => (by cases h), hs⟩
    have hl := ledger_connError (Conn.note { c with controlFrameCount := c.controlFrameCount + n }
      (.charged n)) .errEnhanceYourCalm
    exact h1.stay ⟨purse_connError _ _, congrArg Ledger.cfg hl,
      fun h => (congrArg Ledger.closing hl).symm.trans h, _, congrArg Ledger.journal hl,
      fun _ hm => List.mem_singleton.mp hm ▸ rfl⟩
  · refine ⟨fun hM _ => ?_, hs⟩
    by_contra hlt
    exact hover ⟨hM, Nat.lt_of_not_le hlt⟩

theorem Conn.InBudget.spend (h : c.InBudget) (hpos : 0 < c.windowCredit) :
    Conn.InBudget (Conn.note { c with windowCredit := c.windowCredit - 1 } .creditSpent) := by
  refine ⟨h.budget, ?_, ?_⟩
  · obtain ⟨d, hd, hle⟩ := h.solvent.charges
    refine ⟨d, ?_, ?_⟩ <;>
    · simp only [Conn.note, tally_append]
      assumption
  · have := h.solvent.credits
    change windowCreditUnit * (tally creditsSpent (c.journal ++ [.creditSpent]) +
      (c.windowCredit - 1)) + c.windowCreditBytes ≤ tally dataSize (c.journal ++ [.creditSpent]) +
      windowCreditUnit * (2 * tally dataFrames (c.journal ++ [.creditSpent]))
    change windowCreditUnit * (tally creditsSpent c.journal + c.windowCredit) +
      c.windowCreditBytes ≤ _ at this
    simp only [tally_append, tally_cons, tally_nil, creditsSpent, dataSize, dataFrames,
      windowCreditUnit] at this ⊢
    omega

theorem purse_noteControlProgress (c : Conn) : c.noteControlProgress.purse = { c.purse with
    controlFrameCount := c.noteControlProgress.controlFrameCount } := by
  unfold Conn.noteControlProgress
  split_ifs <;> rfl

theorem Solvent.progress {j : List Event} (h : Solvent c.cfg c.purse j) (s : ℕ) :
    c.noteControlProgress.controlFrameCount ≤ c.controlFrameCount ∧
      Solvent c.cfg c.noteControlProgress.purse (j ++ [.opened s]) := by
  obtain ⟨d, hd, hle⟩ := h.charges
  have hcount : c.noteControlProgress.controlFrameCount ≤ c.controlFrameCount ∧
      c.controlFrameCount ≤ c.noteControlProgress.controlFrameCount + c.cfg.forgiven := by
    unfold Conn.noteControlProgress Config.forgiven
    split_ifs
    · exact ⟨le_refl _, Nat.le_add_right _ _⟩
    · dsimp only
      omega
  rw [purse_noteControlProgress]
  refine ⟨hcount.1, ⟨d, ?_, ?_⟩, ?_⟩
  · rw [tally_append]
    exact hd
  · rw [tally_append, tally_append, Nat.add_right_comm, Nat.mul_add]
    have h1 : tally chargedUnits [.opened s] = 0 := rfl
    have h2 : tally streamsOpened [.opened s] = 1 := rfl
    rw [h1, h2, Nat.mul_one]
    have : c.purse.controlFrameCount = c.controlFrameCount := rfl
    dsimp only
    omega
  · rw [tally_append, tally_append, tally_append]
    exact h.credits

theorem Conn.InBudget.openNew (h : c.InBudget) :
    (Conn.openStream { c with lastStreamId := sid } sid).InBudget := by
  obtain ⟨hle, hs⟩ := Solvent.progress (c := { c with lastStreamId := sid }) h.solvent sid
  rw [purse_noteControlProgress] at hs
  obtain ⟨u, i, p, e⟩ := openStream_eq { c with lastStreamId := sid } sid
  rw [e]
  exact ⟨fun hM hc => hle.trans (h.budget hM hc), hs⟩

theorem dataFrames_burst (sid : ℕ) (chunks : List Bytes) (last : Bool) :
    tally dataFrames (burstEvents sid chunks last) = chunks.length := by
  induction chunks with
  | nil => rfl
  | cons x xs ih =>
    simp only [burstEvents, List.map_cons, tally_cons, List.length_cons] at ih ⊢
    rw [ih, Nat.add_comm]
    rfl

theorem Solvent.dataProgress {j evs : List Event} {frames : ℕ}
    (h : Solvent c.cfg c.purse j) (hn : tally dataSize evs = n)
    (hf : tally dataFrames evs = frames) (hpos : n ≠ 0 → 0 < frames)
    (he : ∀ e ∈ evs, e.isGratis = true) :
    (c.noteDataProgress n frames).controlFrameCount ≤ c.controlFrameCount ∧
      Solvent c.cfg (c.noteDataProgress n frames).purse (j ++ evs) := by
  obtain ⟨⟨d, hd, hle⟩, hcr⟩ := h.append he
  obtain ⟨d0, hd0, hle0⟩ := h.charges
  have hcr0 := h.credits
  unfold Conn.noteDataProgress
  split_ifs with hz
  · exact ⟨le_refl _, ⟨d, hd, hle⟩, hcr⟩
  · have hframes := hpos (fun h => hz (.inr h))
    have hcredit : windowCreditUnit * (tally creditsSpent (j ++ evs) +
        min (c.windowCredit + ((c.windowCreditBytes + n) / windowCreditUnit + 2 * max frames 1))
          (windowCreditCap * c.cfg.maxControlFrames)) +
        (c.windowCreditBytes + n - (c.windowCreditBytes + n) / windowCreditUnit *
          windowCreditUnit) ≤
        tally dataSize (j ++ evs) + windowCreditUnit * (2 * tally dataFrames (j ++ evs)) := by
      have hs := (tally_gratis he).2
      change windowCreditUnit * (_ + c.windowCredit) + c.windowCreditBytes ≤ _ at hcr0
      simp only [tally_append, hs, hn, hf, windowCreditUnit] at hcr0 ⊢
      omega
    dsimp only
    split_ifs with hcount
    · refine ⟨le_refl _, ⟨d, ?_, hle⟩, hcredit⟩
      refine le_trans ?_ hd
      change d * respHighWater + 0 ≤ d * respHighWater + c.dataSinceDecay
      exact Nat.add_le_add_left (Nat.zero_le _) _
    · obtain ⟨hr, d', hd', hle'⟩ := decayLoop_spec (max 1 (c.cfg.maxControlFrames / 10))
        (c.dataSinceDecay + n, c.controlFrameCount)
      refine ⟨hr, ⟨d0 + d', ?_, ?_⟩, hcredit⟩
      · change d0 * respHighWater + c.dataSinceDecay ≤ _ at hd0
        rw [tally_append, hn, Nat.add_mul, Nat.add_assoc]
        exact (Nat.add_le_add_left hd'.le _).trans (by omega)
      · have hc := (tally_gratis he).1
        change tally chargedUnits j ≤ c.controlFrameCount + _ at hle0
        rw [tally_append, hc, tally_append, Nat.add_zero]
        refine hle0.trans ?_
        change c.controlFrameCount + _ ≤ ((Conn.decayLoop _).run _).2 + c.cfg.forgiven * _
        have hsplit : c.cfg.forgiven * (tally streamsOpened j + tally streamsOpened evs + (d0 + d'))
            = c.cfg.forgiven * (tally streamsOpened j + d0) + c.cfg.forgiven * d' +
              c.cfg.forgiven * tally streamsOpened evs := by ring
        rw [hsplit]
        change c.controlFrameCount ≤ _ + c.cfg.forgiven * d' at hle'
        omega

theorem Conn.InBudget.burst (h : c.InBudget) (chunks : List Bytes) (last : Bool) :
    (c.burst sid chunks last).InBudget := by
  have hs : Solvent (c.sendData sid chunks last).cfg (c.sendData sid chunks last).purse c.journal :=
    h.solvent
  have hpos : burstSize chunks ≠ 0 → 0 < chunks.length := by
    intro hn
    refine List.length_pos_iff.mpr (fun h => hn ?_)
    rw [h]
    rfl
  have hgratis : ∀ e ∈ burstEvents sid chunks last, e.isGratis = true := by
    intro e he
    obtain ⟨x, -, rfl⟩ := List.mem_map.mp he
    rfl
  obtain ⟨hle, hs'⟩ := hs.dataProgress (tally_burst sid chunks last).2.1
    (dataFrames_burst sid chunks last) hpos hgratis
  obtain ⟨k, d, w, y, e⟩ := noteDataProgress_eq (c.sendData sid chunks last) (burstSize chunks)
    chunks.length
  rw [Conn.burst]
  rw [e] at hle hs' ⊢
  rw [← journal_sendData] at hs'
  exact ⟨fun hM hc => hle.trans (h.budget hM hc), hs'⟩

theorem Conn.InBudget.posting (h : Posting a b) (ha : a.InBudget) : b.InBudget := by
  cases h with
  | basic h =>
    cases h with
    | note he => exact ha.stay (.of_snoc rfl rfl rfl rfl (isGratis_of_isFree he))
    | block sid fields es => exact ha.stay (.emitBlock a sid fields es)
    | charge n => exact ha.charge n
    | spend h => exact ha.spend h
    | error err => exact ha.stay (.connError a err)
    | countReset =>
      exact countReset_kept (fun c err h => h.stay (.connError c err))
        (ha.stay (.of_same rfl rfl rfl rfl))
    | openNew h hodd hg hn => exact ha.openNew
    | refuse h hn => exact ha.stay (.of_same rfl rfl rfl rfl)
    | tableSize value =>
      unfold Conn.applyTableSize
      dsimp only
      split_ifs <;> exact ha.stay (.of_snoc rfl rfl rfl rfl rfl)
    | _ => exact ha.stay (.of_snoc rfl rfl rfl rfl rfl)
  | other hl hs => exact ha.stay (.of_ledger hl)
  | burst last h he => exact he ▸ ha.burst _ last
  | _ => exact ha.stay (.of_snoc rfl rfl rfl rfl rfl)

end Budget

/-! ### The overhead of a frame -/

/-- The HEADERS frame opens a stream that is turned down, or comes behind a stream that the server
closed early. -/
def Conn.turnsDown (c : Conn) (sid : ℕ) (selfDep : Bool) : Bool :=
  if sid ≤ c.lastStreamId then decide (sid ∉ c.serverReset) && decide (sid ∈ c.earlyClosed)
  else selfDep || c.goingAway ||
    (decide (0 < c.cfg.maxConcurrentStreams) &&
      decide ((c.cfg.maxConcurrentStreams : ℤ) ≤ c.activeStreams))

/-- A HEADERS frame on a half-closed stream is refused at once, one that is turned down when its
field block is complete. -/
def headersOverhead (c : Conn) (f : InFrame) : ℕ :=
  match headersFragment f with
  | .error _ => 0
  | .ok (_, selfDep) =>
      match c.stream? f.header.streamId with
      | some st => if st.headersDone && st.endStreamSeen then 1 else 0
      | none =>
          if c.turnsDown f.header.streamId selfDep && f.header.has flagEndHeaders then 1 else 0

/-- A CONTINUATION frame counts, and with it the refused HEADERS frame whose block it completes. -/
def continuationOverhead (c : Conn) (f : InFrame) : ℕ :=
  match c.contRefuse with
  | .reset _ => if f.header.has flagEndHeaders then 2 else 1
  | _ => 1

/-- A DATA frame on a closed stream counts, unless it is absorbed after a reset by the server. -/
def dataOverhead (c : Conn) (f : InFrame) : ℕ :=
  match c.stream? f.header.streamId with
  | some _ => 0
  | none =>
      if (c.absorbAfterReset f.header.streamId f.header.length (f.header.has flagEndStream)).2
        then 0 else 1

/-- The stream of the DATA frame is closed, half-closed or never headered, and the frame is not
absorbed after a reset by the server. -/
def Conn.refusesData (c : Conn) (f : InFrame) : Bool :=
  match c.stream? f.header.streamId with
  | none =>
      !(c.absorbAfterReset f.header.streamId f.header.length (f.header.has flagEndStream)).2
  | some st => st.endStreamSeen || !st.headersDone

/-- The DATA frame is longer than what is left of the window of its stream. -/
def Conn.overruns (c : Conn) (f : InFrame) : Bool :=
  (c.stream? f.header.streamId).any
    (fun st => decide (st.recvRemaining - (f.header.length : ℤ) < 0))

/-- The DATA frame takes the one branch of `handleData` that charges for it. -/
def Conn.chargesData (c : Conn) (f : InFrame) : Bool := c.refusesData f && !c.overruns f

/-- The overhead of a frame in the state in which it is handled. -/
def overhead (c : Conn) (f : InFrame) : ℕ :=
  if f.header.typ = ftPriorityUpdate then 1
  else
    match FrameType.ofCode f.header.typ with
    | none => 1
    | some .ftData => dataOverhead c f
    | some .ftHeaders => headersOverhead c f
    | some .ftContinuation => continuationOverhead c f
    | some .ftSettings => if f.header.has flagAck then 1 else max 1 (f.header.length / 6)
    | some .ftPing => 1
    | some .ftWindowUpdate =>
        if low31 (get32 f.payload 0) = 0 ∧ f.header.streamId ≤ c.lastStreamId then 1 else 0
    | some .ftRstStream => 0
    | some .ftPriority => 1
    | some .ftGoaway => 1
    | some .ftPushPromise => 0

/-! ### What the handlers charge -/

/-- From `a` to `b` entries are made, and at least `k` units are charged unless the connection
fails. -/
def Bills (k : ℕ) (a b : Conn) : Prop :=
  a.Ranged → Entries a b ∧
    (b.closing = true ∨ tally chargedUnits a.journal + k ≤ tally chargedUnits b.journal)

section Bills

variable {a b c : Conn} {k l n : ℕ}

theorem Entries.tally_le (h : Entries a b) (f : Event → ℕ) :
    tally f a.journal ≤ tally f b.journal := by
  obtain ⟨evs, hj, -⟩ := h.follows.journal
  rw [hj, tally_append]
  exact Nat.le_add_right _ _

theorem Entries.closing (h : Entries a b) (ha : a.closing = true) : b.closing = true := by
  cases hb : b.closing with
  | true => rfl
  | false => exact absurd (h.open_of_open hb) (by simp [ha])

theorem Bills.trans (h1 : Bills k a b) (h2 : Bills l b c) : Bills (k + l) a c := by
  intro hr
  obtain ⟨he1, hp1⟩ := h1 hr
  obtain ⟨he2, hp2⟩ := h2 (he1.ranged hr)
  refine ⟨he1.trans he2, ?_⟩
  rcases hp1 with hp1 | hp1
  · exact .inl (he2.closing hp1)
  · rcases hp2 with hp2 | hp2
    · exact .inl hp2
    · exact .inr (by omega)

theorem Posts.bills (h : Posts a b) : Bills 0 a b :=
  fun hr => ⟨h hr, .inr ((h hr).tally_le _)⟩

theorem Bills.andThen (h1 : Bills k a b) (h2 : Posts b c) : Bills k a c :=
  h1.trans h2.bills

theorem Posts.andThen (h1 : Posts a b) (h2 : Bills k b c) : Bills k a c := by
  have h := h1.bills.trans h2
  rwa [Nat.zero_add] at h

theorem Bills.mono (h : Bills k a b) (hl : l ≤ k) : Bills l a b := by
  intro hr
  obtain ⟨he, hp⟩ := h hr
  exact ⟨he, hp.imp id (by omega)⟩

theorem Bills.of_closing (h : Posts a b) (hb : b.closing = true) : Bills k a b :=
  fun hr => ⟨h hr, .inl hb⟩

theorem Bills.error (c : Conn) (err : ErrCode) : Bills k c (c.connError err) :=
  .of_closing (fun _ => (Basic.error c err).entries) rfl

theorem charged_noteControlFrame (c : Conn) (n : ℕ) :
    tally chargedUnits (c.noteControlFrame n).journal = tally chargedUnits c.journal + n := by
  have h1 : tally chargedUnits (Conn.note { c with
      controlFrameCount := c.controlFrameCount + n } (.charged n)).journal =
      tally chargedUnits c.journal + n := tally_note chargedUnits _ _
  unfold Conn.noteControlFrame
  dsimp only
  split_ifs
  · rw [show (Conn.connError _ _).journal = _ from
      congrArg Ledger.journal (ledger_connError _ .errEnhanceYourCalm)]
    exact (tally_append _ _ _).trans h1
  · exact h1

theorem Bills.charge (c : Conn) (n : ℕ) : Bills n c (c.noteControlFrame n) :=
  fun _ => ⟨(Basic.charge c n).entries, .inr (charged_noteControlFrame c n).ge⟩

end Bills

section Handlers

variable {W : World} {ok : Call → Conn → Prop} (hW : W.Obeys ok) {N : ℕ} {c : Conn} {sid : ℕ}

theorem Path.quietPosts {a b : Conn} (h : Path QuietAtom Behaves a b) : Posts a b :=
  @Path.posts _ _ anyCall h.runs

theorem bills_charged {x : Conn} (h : Posts (c.noteControlFrame n) x) :
    Bills n c (if (c.noteControlFrame n).closing = true then c.noteControlFrame n else x) := by
  split_ifs
  · exact .charge c n
  · exact (Bills.charge c n).andThen h

theorem handlePing_bills (f : InFrame) (c : Conn) : Bills 1 c (handlePing f c) := by
  unfold handlePing
  split
  · exact .error c _
  · split
    · exact .error c _
    · refine bills_charged ?_
      split_ifs
      · exact .refl _
      · exact fun _ => .send _ rfl

theorem handleGoaway_bills (f : InFrame) (c : Conn) : Bills 1 c (handleGoaway f c) := by
  unfold handleGoaway
  split_ifs
  · exact .error c _
  · exact .error c _
  · exact (Bills.charge c 1).andThen (fun _ => .of_streams rfl rfl)

theorem handlePriorityUpdate_bills (f : InFrame) (c : Conn) :
    Bills 1 c (handlePriorityUpdate f c) := by
  unfold handlePriorityUpdate
  split_ifs
  · exact .error c _
  · exact .error c _
  · refine bills_charged ?_
    dsimp only
    split_ifs
    · exact fun _ => (Basic.error _ _).entries
    · exact (FrameAtom.reprioritize _ _ _).entries
    · exact fun _ => .of_streams rfl rfl
    · exact .refl _

theorem replenish_posts (sid length deferred : ℕ) (c : Conn) :
    Posts c (c.replenish sid length deferred) :=
  @Path.posts _ _ anyCall (replenish_path sid length deferred c).dataRuns

theorem absorbed_congr {a b : Conn} (h : b.serverReset = a.serverReset) (sid n : ℕ) (es : Bool) :
    (b.absorbAfterReset sid n es).2 = (a.absorbAfterReset sid n es).2 := by
  unfold Conn.absorbAfterReset
  rw [h]
  split
  · rfl
  · dsimp only
    split_ifs <;> rfl

theorem stream_debited (c : Conn) (f : InFrame) :
    ((c.debitConn f.header.length).debitStream f.header.streamId f.header.length).stream?
      f.header.streamId = (c.stream? f.header.streamId).map
        (fun st => { st with recvRemaining := st.recvRemaining - f.header.length }) := by
  unfold Conn.stream? Conn.debitStream Conn.modify
  rw [Table.lookup_modify_self]
  rfl

theorem refusesData_debited (c : Conn) (f : InFrame) :
    ((c.debitConn f.header.length).debitStream f.header.streamId f.header.length).refusesData f =
      c.refusesData f := by
  unfold Conn.refusesData
  rw [stream_debited]
  cases c.stream? f.header.streamId with
  | none =>
    have h : ((c.debitConn f.header.length).debitStream f.header.streamId
        f.header.length).serverReset = c.serverReset := rfl
    exact congrArg (! ·) (absorbed_congr h _ _ _)
  | some st => rfl

theorem overruns_debited (c : Conn) (f : InFrame) :
    (((c.debitConn f.header.length).debitStream f.header.streamId f.header.length).stream?
      f.header.streamId).any (fun st => decide (st.recvRemaining < 0)) = c.overruns f := by
  unfold Conn.overruns
  rw [stream_debited, Option.any_map]

theorem dataOverhead_le (c : Conn) (f : InFrame) :
    dataOverhead c f ≤ if c.chargesData f then 1 else 0 := by
  unfold dataOverhead Conn.chargesData Conn.refusesData Conn.overruns
  cases c.stream? f.header.streamId with
  | none =>
    split_ifs <;> simp_all
  | some st => exact Nat.zero_le _

include hW

theorem streamError_posts (sid : ℕ) (err : ErrCode) (c : Conn) :
    Posts c (streamError (W.hooks N) sid err c) :=
  (streamError_path (World.fire_posts hW N) sid err c).quiet.quietPosts

theorem teardownStream_posts (sid : ℕ) (c : Conn) : Posts c (teardownStream (W.hooks N) sid c) :=
  (teardown_path (World.fire_posts hW N) sid c).quiet.quietPosts

theorem refuseClosed_bills (sid : ℕ) (c : Conn) : Bills 1 c (refuseClosed (W.hooks N) sid c) :=
  bills_charged (streamError_posts hW _ _ _)

theorem handlePriority_bills (f : InFrame) (c : Conn) :
    Bills 1 c (handlePriority (W.hooks N) f c) := by
  unfold handlePriority
  dsimp only
  split
  · exact .error c _
  · split
    · exact .error c _
    · refine bills_charged ?_
      split_ifs
      · exact fun _ => (Basic.error _ _).entries
      · exact streamError_posts hW _ _ _
      · exact .refl _

theorem windowUpdateZero_bills (c : Conn) : Bills 1 c (windowUpdateZero (W.hooks N) sid c) := by
  unfold windowUpdateZero
  split
  · exact .error c _
  · exact bills_charged (streamError_posts hW _ _ _)

theorem h2Schedule_posts (c : Conn) : Posts c (h2Schedule (W.hooks N) c) :=
  (h2Schedule_path (World.fire_posts hW N) @Behaves.kept c).quiet.quietPosts

theorem handleSettings_bills (f : InFrame) (c : Conn) :
    Bills (if f.header.has flagAck then 1 else max 1 (f.header.length / 6)) c
      (handleSettings (W.hooks N) f c) := by
  unfold handleSettings
  cases hack : f.header.has flagAck with
  | true =>
    rw [if_pos rfl, if_pos rfl]
    split_ifs
    · exact .error c _
    · exact .error c _
    · exact .charge c 1
  | false =>
    rw [if_neg Bool.false_ne_true, if_neg Bool.false_ne_true]
    split
    · exact .error c _
    · split
      · exact .error c _
      · refine bills_charged ?_
        dsimp only
        split
        · next c2 h => exact (FrameAtom.settingsFailed _ _ h).entries
        · next c2 h =>
          split
          · have h2 : Posts _ (enqueueBacklog ((W.hooks N).order (c2.send .settingsAck)).1
                (c2.send .settingsAck)) :=
              (FrameAtom.settingsWindow (W.hooks N) _ h).entries
            exact h2.trans (h2Schedule_posts hW _)
          · next hn =>
            exact (FrameAtom.settings _ _ h (Bool.eq_false_iff.mpr hn)).entries

theorem answerRefusal_bills (sid : ℕ) (err : ErrCode) (c : Conn) :
    Bills 1 c (answerRefusal (W.hooks N) sid (.reset err) c) := by
  unfold answerRefusal
  dsimp only
  split
  · next hc => exact .of_closing (.refl c) hc
  · exact bills_charged (streamError_posts hW _ _ _)

theorem dataAdmitted_bills (f : InFrame) (hf : c.refusesData f = true) :
    Bills 1 c (dataAdmitted (W.hooks N) f.header.streamId f c) := by
  unfold Conn.refusesData at hf
  unfold dataAdmitted
  cases hs : c.stream? f.header.streamId with
  | none =>
    rw [hs] at hf
    have h1 : Posts c (c.absorbAfterReset f.header.streamId f.header.length
        (f.header.has flagEndStream)).1 := fun _ => entries_absorbAfterReset _ _ _ _
    dsimp only
    rw [if_neg (by simpa using hf)]
    exact (h1.andThen (refuseClosed_bills hW _ _)).andThen (replenish_posts _ _ _ _)
  | some st =>
    rw [hs] at hf
    dsimp only at hf ⊢
    rw [if_pos hf]
    exact (refuseClosed_bills hW _ _).andThen (replenish_posts _ _ _ _)

theorem handleData_bills (f : InFrame) (c : Conn) :
    Bills (if c.chargesData f then 1 else 0) c (handleData (W.hooks N) f c) := by
  split
  · next hf =>
    simp only [Conn.chargesData, Bool.and_eq_true, Bool.not_eq_true'] at hf
    unfold handleData
    dsimp only
    split_ifs
    · exact .error c _
    · exact .error c _
    · exact .error c _
    · unfold dataDebit
      split
      · have h1 : Posts c (c.debitConn f.header.length) := fun _ => .of_streams rfl rfl
        have h2 : Posts _ ((c.debitConn f.header.length).debitStream f.header.streamId
            f.header.length) := fun _ => .modify _ _ (fun _ => rfl)
        dsimp only
        split
        · exact h1.andThen (.error _ _)
        · rw [overruns_debited, if_neg (by simp [hf.2])]
          exact (h1.trans h2).andThen
            (dataAdmitted_bills hW f ((refusesData_debited c f).trans hf.1))
      · exact dataAdmitted_bills hW f hf.1
  · have h : Path (HandleAtom ok) Behaves c _ :=
      (handleData_path (World.fire_posts hW N) f c).dataRuns
    exact h.posts.bills

theorem finishHeaders_posts (sid : ℕ) (es : Bool) (c : Conn)
    (hgo : ∀ st, c.stream? sid = some st → st.endStreamSeen = false) :
    Posts c (finishHeaders (W.hooks N) sid es c) := by
  have h : Path (HandleAtom ok) Behaves c _ :=
    finishHeaders_path (World.fire_posts hW N) sid es c hgo
  exact h.posts

theorem handleContinuation_bills (f : InFrame) (hr : c.Reading) :
    Bills (continuationOverhead c f) c (handleContinuation (W.hooks N) f c) := by
  unfold handleContinuation
  split
  · exact .error c _
  · next hcont =>
    have hr1 := hr.congr (contStream_noteControlFrame c 1) (Conn.streams_noteControlFrame c 1)
    have h1 : Bills 1 c (c.noteControlFrame 1) := .charge c 1
    have hcont1 : (c.noteControlFrame 1).contStream ≠ 0 := by
      rw [contStream_noteControlFrame]
      exact fun h => hcont (.inl h)
    have hrefuse : (c.noteControlFrame 1).contRefuse = c.contRefuse :=
      congrArg BlockView.contRefuse (frameMoves_noteControlFrame c 1).blockView
    generalize c.noteControlFrame 1 = c1 at h1 hr1 hcont1 hrefuse
    dsimp only
    split
    · next hc => exact .of_closing (fun hr => (h1 hr).1) hc
    · split
      · exact .of_closing (fun hr => (h1 hr).1.trans (Basic.error _ _).entries) rfl
      · have h2 : Bills 1 c { c1 with headerBlock := c1.headerBlock ++ f.payload } :=
          h1.andThen (fun _ => .of_streams rfl rfl)
        by_cases hes : f.header.has flagEndHeaders = true
        · rw [if_pos hes]
          have h3 : Bills 1 c { c1 with
              headerBlock := c1.headerBlock ++ f.payload
              contStream := 0
              contRefuse := .none } := h2.andThen (fun _ => .of_streams rfl rfl)
          have h4 := h3.andThen (finishHeaders_posts hW (N := N) c1.contStream c1.contEndStream _
            (hr1 hcont1))
          unfold continuationComplete continuationOverhead
          rw [hrefuse]
          cases hc : c.contRefuse with
          | reset err =>
            rw [if_pos hes]
            exact h4.trans (answerRefusal_bills hW _ _ _)
          | none | silent => exact h4
        · rw [if_neg hes]
          refine h2.mono ?_
          unfold continuationOverhead
          split
          · rw [if_neg hes]
          · exact le_refl 1

omit hW in
theorem classifyHeaders_turnsDown {H : Hooks} {selfDep : Bool} (es : Bool)
    (hs : c.stream? sid = none) (hd : c.turnsDown sid selfDep = true) :
    ∃ c1 err, classifyHeaders H sid selfDep es c = .ok (c1, .reset err) := by
  unfold Conn.turnsDown at hd
  unfold classifyHeaders
  rw [hs]
  split_ifs at hd ⊢ with hl hreset hearly
  · simp [hreset] at hd
  · exact ⟨_, _, rfl⟩
  · simp [hearly] at hd
  · unfold Conn.admitStream
    have hrefuse : ∃ err, (if selfDep = true then Refusal.reset .errProtocol
        else if c.goingAway = true then .reset .errRefusedStream
        else if 0 < c.cfg.maxConcurrentStreams ∧ (c.cfg.maxConcurrentStreams : ℤ) ≤ c.activeStreams
          then .reset .errRefusedStream
        else .none) = .reset err := by
      split_ifs with h1 h2 h3
      · exact ⟨_, rfl⟩
      · exact ⟨_, rfl⟩
      · exact ⟨_, rfl⟩
      · simp [h1, h2] at hd
        exact absurd hd h3
    obtain ⟨err, href⟩ := hrefuse
    rw [href]
    exact ⟨_, _, rfl⟩

theorem headersComplete_posts (f : InFrame) {c1 : Conn} {selfDep es : Bool} {refuse : Refusal}
    (h : classifyHeaders (W.hooks N) sid selfDep es c = .ok (c1, refuse)) :
    Posts c1 (headersComplete (W.hooks N) sid f refuse c1) := by
  have hfire := World.fire_posts hW N
  unfold headersComplete
  split
  · refine Posts.trans (b := finishHeaders (W.hooks N) sid (f.header.has flagEndStream) c1) ?_ ?_
    · exact finishHeaders_posts hW _ _ _ (classifyHeaders_going hfire @Behaves.kept h)
    · exact (answerRefusal_path hfire _ _ _).quietPosts
  · exact fun _ => .of_streams rfl rfl

theorem classifyHeaders_halfClosed {st : Stream} (selfDep es : Bool)
    (hs : c.stream? sid = some st) (hdone : st.headersDone = true)
    (hend : st.endStreamSeen = true) :
    Bills 1 c (outcome Prod.fst (classifyHeaders (W.hooks N) sid selfDep es c)) := by
  unfold classifyHeaders
  rw [hs]
  dsimp only
  rw [hdone, hend, if_neg (by decide), if_pos rfl]
  split <;> exact refuseClosed_bills hW sid c

/-- **A HEADERS frame is charged when it is refused.** -/
theorem handleHeaders_bills (f : InFrame) (hn : c.Announces f.header.streamId) :
    Bills (headersOverhead c f) c (handleHeaders (W.hooks N) f c) := by
  have hfire := World.fire_posts hW N
  unfold handleHeaders
  dsimp only
  split
  · exact .error c _
  · next hid =>
    have hodd : f.header.streamId % 2 = 1 := by omega
    unfold headersOverhead
    cases hfrag : headersFragment f with
    | error e => exact .error c e
    | ok p =>
      obtain ⟨frag, selfDep⟩ := p
      dsimp only
      have h1 : Posts c { c with headerBlock := frag } := fun _ => .of_streams rfl rfl
      have hp : Path (HandleAtom ok) Behaves _ _ :=
        (classifyHeaders_path hfire hodd selfDep (f.header.has flagEndStream)
          (c := { c with headerBlock := frag }) hn).runs
      refine h1.andThen ?_
      cases hs : c.stream? f.header.streamId with
      | some st =>
        have hhalf : Bills (if (st.headersDone && st.endStreamSeen) = true then 1 else 0)
            { c with headerBlock := frag } (outcome Prod.fst (classifyHeaders (W.hooks N)
              f.header.streamId selfDep (f.header.has flagEndStream)
              { c with headerBlock := frag })) := by
          split_ifs with hh
          · obtain ⟨hdone, hend⟩ := Bool.and_eq_true_iff.mp hh
            exact classifyHeaders_halfClosed hW _ _ hs hdone hend
          · exact hp.posts.bills
        cases hc : classifyHeaders (W.hooks N) f.header.streamId selfDep
            (f.header.has flagEndStream) { c with headerBlock := frag } with
        | error c1 =>
          rw [hc] at hhalf
          exact hhalf
        | ok p =>
          rw [hc] at hhalf
          exact hhalf.andThen (headersComplete_posts hW f hc)
      | none =>
        split_ifs with hdown
        · obtain ⟨hdown, hes⟩ := Bool.and_eq_true_iff.mp hdown
          obtain ⟨c1, err, hc⟩ := classifyHeaders_turnsDown (H := W.hooks N)
            (c := { c with headerBlock := frag }) (f.header.has flagEndStream) hs hdown
          rw [hc] at hp ⊢
          dsimp only
          unfold headersComplete
          rw [if_pos hes]
          exact (hp.posts.trans (finishHeaders_posts hW _ _ _
            (classifyHeaders_going hfire @Behaves.kept hc))).andThen (answerRefusal_bills hW _ _ _)
        · refine Posts.bills ?_
          cases hc : classifyHeaders (W.hooks N) f.header.streamId selfDep
              (f.header.has flagEndStream) { c with headerBlock := frag } with
          | error c1 =>
            rw [hc] at hp
            exact hp.posts
          | ok p =>
            rw [hc] at hp
            exact hp.posts.trans (headersComplete_posts hW f hc)

/-- **Every handler charges the overhead of its frame, or fails the connection.** -/
theorem handleFrame_bills (f : InFrame) (hr : c.Reading) (hl : c.lastFrame = some f) :
    Bills (overhead c f) c (handleFrame (W.hooks N) f c) := by
  have hposts : Posts c (handleFrame (W.hooks N) f c) := fun h => handleFrame_entries hW N hr hl h
  unfold handleFrame at hposts ⊢
  split
  · exact .error c _
  · next hcont =>
    rw [if_neg hcont] at hposts
    unfold overhead
    by_cases hpri : f.header.typ = ftPriorityUpdate
    · rw [if_pos hpri, if_pos hpri]
      exact handlePriorityUpdate_bills f c
    · rw [if_neg hpri] at hposts ⊢
      rw [if_neg hpri]
      cases ht : FrameType.ofCode f.header.typ with
      | none => exact .charge c 1
      | some t =>
        rw [ht] at hposts
        cases t with
        | ftData => exact (handleData_bills hW f c).mono (dataOverhead_le c f)
        | ftHeaders => exact handleHeaders_bills hW f ⟨f, hl, ht, rfl⟩
        | ftContinuation => exact handleContinuation_bills hW f hr
        | ftSettings => exact handleSettings_bills hW f c
        | ftPing => exact handlePing_bills f c
        | ftWindowUpdate =>
          dsimp only
          split_ifs with hz
          · unfold handleWindowUpdate
            dsimp only
            rw [if_pos hz.1]
            split_ifs
            · exact .error c _
            · exact .error c _
            · exact windowUpdateZero_bills hW c
          · exact hposts.bills
        | ftRstStream => exact hposts.bills
        | ftPriority => exact handlePriority_bills hW f c
        | ftGoaway => exact handleGoaway_bills f c
        | ftPushPromise => exact hposts.bills

end Handlers

/-! ### Whole runs -/

theorem Reachable.inBudget (hW : W.Obeys ok) (h : Reachable (W.hooks n) ok cfg c) : c.InBudget := by
  refine h.accounts hW ⟨fun _ _ => Nat.zero_le _, ⟨0, ?_, ?_⟩, ?_⟩
    (fun _ _ he _ => he.kept fun _ _ => .posting)
    (fun c f rest _ _ _ ha => ha.stay (.of_snoc rfl rfl rfl rfl rfl))
  · exact le_refl _
  · exact Nat.zero_le _
  · exact le_refl _

theorem Metered.billed_le (hW : W.Obeys ok) {m : Conn → InFrame → ℕ}
    (hm : ∀ f c, c.Reading → c.lastFrame = some f → Bills (m c f) c (handleFrame (W.hooks n) f c))
    {k : ℕ} (h : Metered (W.hooks n) ok cfg (frameMeter m) c k) (hc : c.closing = false) :
    k ≤ tally chargedUnits c.journal := by
  refine h.frames_le hW (φ := fun c => tally chargedUnits c.journal)
    (fun _ _ he _ => he.entries.tally_le _) (fun c f rest => ?_)
    (fun c f rest hr hf hopen => ?_) hc
  · exact (Nat.le_add_right _ _).trans (tally_note chargedUnits _ _).ge
  · have hbills := hm f (c.arrived f rest) (hr.reading hW) (lastFrame_arrived c f rest)
    rcases (hbills ((hr.ranged hW).arrived f rest)).2 with h' | h'
    · rw [hopen] at h'
      cases h'
    · have : tally chargedUnits (c.arrived f rest).journal = tally chargedUnits c.journal := by
        exact tally_note chargedUnits { c with rbuf := rest, sawFirstFrame := true } (.received f)
      rwa [this] at h'

theorem Reachable.within_budget (hW : W.Obeys ok) (h : Reachable (W.hooks n) ok cfg c)
    (hM : 0 < cfg.maxControlFrames) (hc : c.closing = false) :
    tally chargedUnits c.journal ≤ cfg.maxControlFrames + max 1 (cfg.maxControlFrames / 10) *
        (tally streamsOpened c.journal + tally dataSize c.journal / respHighWater) ∧
      tally creditsSpent c.journal ≤
        tally dataSize c.journal / 256 + 2 * tally dataFrames c.journal := by
  have hb := h.inBudget hW
  have hcfg := h.cfg_eq hW
  have hcount := hb.budget (hcfg ▸ hM) hc
  obtain ⟨⟨d, hd, hle⟩, hcr⟩ := hb.solvent
  rw [hcfg] at hcount hle
  refine ⟨hle.trans (Nat.add_le_add hcount ?_), ?_⟩
  · refine Nat.mul_le_mul_left _ (Nat.add_le_add_left ?_ _)
    refine (Nat.le_div_iff_mul_le (Nat.mul_pos (by norm_num) (by norm_num))).mpr ?_
    exact (Nat.le_add_right _ _).trans hd
  · simp only [windowCreditUnit] at hcr
    omega

/-- **The flood budget.**  In every run that is not failing, the overhead received is at most
`maxControlFrames` and what was forgiven for the streams opened and the DATA sent, and the credits
spent on WINDOW_UPDATE frames were earned by DATA. -/
theorem overhead_is_budgeted {k : ℕ}
    (h : Metered (W.hooks n) anyCall cfg (frameMeter overhead) c k)
    (hM : 0 < cfg.maxControlFrames) (hc : c.closing = false) :
    k ≤ cfg.maxControlFrames + max 1 (cfg.maxControlFrames / 10) *
        (tally streamsOpened c.journal + tally dataSize c.journal / respHighWater) ∧
      tally creditsSpent c.journal ≤
        tally dataSize c.journal / 256 + 2 * tally dataFrames c.journal := by
  have hW := obeys_anyCall W
  obtain ⟨hcharged, hspent⟩ := h.reachable.within_budget hW hM hc
  exact ⟨(h.billed_le hW (fun f _ => handleFrame_bills hW f) hc).trans hcharged, hspent⟩

/-- The overhead as it arrives: a HEADERS frame counts as refused although its field block is not
complete. -/
def overheadOnArrival (c : Conn) (f : InFrame) : ℕ :=
  match FrameType.ofCode f.header.typ with
  | some .ftHeaders =>
      match headersFragment f, c.stream? f.header.streamId with
      | .ok (_, selfDep), none => if c.turnsDown f.header.streamId selfDep then 1 else 0
      | _, _ => headersOverhead c f
  | some .ftContinuation => 1
  | _ => overhead c f

/-- One unit of overhead. -/
def floodConfig : Config := { smallConfig with maxControlFrames := 1 }

/-- The client's SETTINGS frame, the cutoff, and the first half of a request that comes too late. -/
def halfRefusal : List Input :=
  feedInputs [] ++ [.call (.goaway .errNoError),
    .bytes (Frame.headers 1 postBlock true false).bytes, .feed]

/-- Two frames of overhead have arrived, the budget is one, and nothing was forgiven. -/
theorem halfRefusal_on_arrival : ∃ c k,
    Metered ((idleWorld false).hooks 0) anyCall floodConfig (frameMeter overheadOnArrival) c k ∧
      c.closing = false ∧
      ¬ k ≤ floodConfig.maxControlFrames + max 1 (floodConfig.maxControlFrames / 10) *
        (tally streamsOpened c.journal + tally dataSize c.journal / respHighWater) :=
  ⟨_, _, Metered.foldl halfRefusal .start (fun _ _ _ => trivial), by decide +kernel,
    by decide +kernel⟩

/-- The same run, with the refusal still to come. -/
theorem overhead_is_budgeted_halfRefusal :
    let c := halfRefusal.foldl (step ((idleWorld false).hooks 0)) (newH2Conn floodConfig)
    let k := readings ((idleWorld false).hooks 0) (frameMeter overhead) halfRefusal
      (newH2Conn floodConfig)
    (0 < floodConfig.maxControlFrames ∧ c.closing = false ∧ k = 1) ∧
      0 + k ≤ floodConfig.maxControlFrames + max 1 (floodConfig.maxControlFrames / 10) *
        (tally streamsOpened c.journal + tally dataSize c.journal / respHighWater) ∧
      tally creditsSpent c.journal ≤
        tally dataSize c.journal / 256 + 2 * tally dataFrames c.journal :=
  ⟨by decide +kernel, overhead_is_budgeted (W := idleWorld false) (n := 0)
    (Metered.foldl halfRefusal .start (fun _ _ _ => trivial)) (by decide) (by decide +kernel)⟩

/-! ### DATA frames that carry nothing -/

/-- A DATA frame with no payload bytes, of length zero or padding only, that does not end its
stream. -/
def InFrame.carriesNothing (f : InFrame) : Bool :=
  decide (FrameType.ofCode f.header.typ = some .ftData) && !f.header.has flagEndStream &&
    (f.header.length == 0 || match unpadData f with
      | .ok data => data.isEmpty
      | .error _ => false)

/-- Counts the DATA frames that carry nothing. -/
def emptyData (_ : Conn) (f : InFrame) : ℕ := if f.carriesNothing then 1 else 0

/-- Those that `handleData` charges for. -/
def chargedEmptyData (c : Conn) (f : InFrame) : ℕ :=
  if f.carriesNothing && c.chargesData f then 1 else 0

/-- And those that take another branch. -/
def unchargedEmptyData (c : Conn) (f : InFrame) : ℕ :=
  if f.carriesNothing && !c.chargesData f then 1 else 0

theorem emptyData_le (c : Conn) (f : InFrame) :
    emptyData c f ≤ chargedEmptyData c f + unchargedEmptyData c f := by
  unfold emptyData chargedEmptyData unchargedEmptyData
  cases f.carriesNothing <;> cases c.chargesData f <;> decide

theorem chargedEmptyData_bills (f : InFrame) (c : Conn) (hr : c.Reading)
    (hl : c.lastFrame = some f) :
    Bills (chargedEmptyData c f) c (handleFrame (W.hooks n) f c) := by
  have hW := obeys_anyCall W
  unfold chargedEmptyData
  split
  · next hf =>
    simp only [InFrame.carriesNothing, Bool.and_eq_true, decide_eq_true_eq] at hf
    obtain ⟨⟨⟨ht, -⟩, -⟩, hcharged⟩ := hf
    have hpri : f.header.typ ≠ ftPriorityUpdate := by
      intro h
      rw [h] at ht
      cases ht
    unfold handleFrame
    rw [ht, if_neg hpri]
    split
    · exact .error c _
    · exact (handleData_bills hW f c).mono (by simp [hcharged])
  · exact (handleFrame_bills hW f hr hl).mono (Nat.zero_le _)

/-- **DATA frames that carry nothing are budgeted when they are charged.**  In every run in which
each of them meets a stream that is closed, half-closed or never headered, and is neither absorbed
nor longer than the window of the stream, their number obeys the bound of the other overhead
frames. -/
theorem empty_data_is_budgeted (is : List Input)
    (hcharged : readings (W.hooks n) (frameMeter unchargedEmptyData) is (newH2Conn cfg) = 0)
    (hM : 0 < cfg.maxControlFrames)
    (hc : (is.foldl (step (W.hooks n)) (newH2Conn cfg)).closing = false) :
    readings (W.hooks n) (frameMeter emptyData) is (newH2Conn cfg) ≤
      cfg.maxControlFrames + max 1 (cfg.maxControlFrames / 10) *
        (tally streamsOpened (is.foldl (step (W.hooks n)) (newH2Conn cfg)).journal +
          tally dataSize (is.foldl (step (W.hooks n)) (newH2Conn cfg)).journal /
            respHighWater) := by
  have hW := obeys_anyCall W
  have hrun : Metered (W.hooks n) anyCall cfg (frameMeter chargedEmptyData) _ _ :=
    Metered.foldl is .start (fun _ _ _ => trivial)
  have hle := hrun.billed_le hW chargedEmptyData_bills hc
  rw [Nat.zero_add] at hle
  have hsplit := readings_le_add emptyData_le (H := W.hooks n) is (newH2Conn cfg)
  rw [hcharged, Nat.add_zero] at hsplit
  exact hsplit.trans (hle.trans (hrun.reachable.within_budget hW hM hc).1)

/-- A request whose body is still to come, and DATA frames that carry nothing. -/
def emptyUpload : List Input :=
  feedInputs ([.headers 1 postBlock false true] ++ List.replicate 3 (.data 1 [] false))

/-- On an open stream such frames are not charged: three have arrived, the budget is one, and one
stream was opened. -/
theorem emptyUpload_unbounded : ∃ c k,
    Metered ((idleWorld false).hooks 0) anyCall floodConfig (frameMeter emptyData) c k ∧
      c.closing = false ∧
      ¬ k ≤ floodConfig.maxControlFrames + max 1 (floodConfig.maxControlFrames / 10) *
        (tally streamsOpened c.journal + tally dataSize c.journal / respHighWater) :=
  ⟨_, _, Metered.foldl emptyUpload .start (fun _ _ _ => trivial), by decide +kernel,
    by decide +kernel⟩

/-- The same frame behind the end of the request. -/
def emptyAfterEnd : List Input :=
  feedInputs [.headers 1 postBlock true true, .data 1 [] false]

theorem empty_data_is_budgeted_afterEnd :
    let c := emptyAfterEnd.foldl (step ((idleWorld false).hooks 0)) (newH2Conn floodConfig)
    let k := readings ((idleWorld false).hooks 0) (frameMeter emptyData) emptyAfterEnd
      (newH2Conn floodConfig)
    (k = 1 ∧ c.closing = false) ∧
      k ≤ floodConfig.maxControlFrames + max 1 (floodConfig.maxControlFrames / 10) *
        (tally streamsOpened c.journal + tally dataSize c.journal / respHighWater) :=
  ⟨by decide +kernel, empty_data_is_budgeted (W := idleWorld false) (n := 0) emptyAfterEnd
    (by decide +kernel) (by decide) (by decide +kernel)⟩

end Vortex.Http2

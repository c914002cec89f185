import Vortex.Http2.Ledger
import Vortex.Http2.Exchange

/-! # Send windows

The windows the server may send into are sums over the journal: what the peer granted, less the
payload of the DATA frames sent.  The windows the code keeps are these sums in every state a
connection that is not failing can reach, whatever SETTINGS did to the streams that were open at
the time, and every DATA frame fits the windows as they were before it.

The one frame the stream's window does not hold back is the empty DATA frame that ends a response:
after SETTINGS lowered the initial window, it is sent into a negative window. -/

namespace Vortex.Http2

/-! ### Windows from the journal -/

/-- What the event adds to the connection's send window. -/
def connGrant : Event → ℕ
  | .connCredit n => n
  | _ => 0

/-- What the event adds to the send window of stream `s`. -/
def streamGrant (s : ℕ) : Event → ℕ
  | .streamCredit sid n => if sid = s then n else 0
  | _ => 0

/-- The DATA payload of the event. -/
def dataSize : Event → ℕ
  | .sent (.data _ p _) => p.length
  | _ => 0

/-- The DATA payload of the event on stream `s`. -/
def dataSizeOn (s : ℕ) : Event → ℕ
  | .sent (.data sid p _) => if sid = s then p.length else 0
  | _ => 0

/-- The initial window in force. -/
def initialWindowOf (j : List Event) : ℤ :=
  j.foldl (fun w e => match e with | .initialWindow v => (v : ℤ) | _ => w) 65535

/-- The peer's frame size limit in force. -/
def maxFrameOf (j : List Event) : ℕ :=
  j.foldl (fun w e => match e with | .maxFrame v => v | _ => w) 16384

/-- The connection's send window. -/
def connWindowOf (j : List Event) : ℤ := 65535 + tally connGrant j - tally dataSize j

/-- The send window of stream `s`. -/
def streamWindowOf (j : List Event) (s : ℕ) : ℤ :=
  initialWindowOf j + tally (streamGrant s) j - tally (dataSizeOn s) j

/-- Events no window depends on. -/
def Event.isAside : Event → Bool
  | .sent (.data _ _ _) | .connCredit _ | .streamCredit _ _ | .initialWindow _ | .maxFrame _ => false
  | _ => true

/-- A DATA frame fits the frame size and the connection's window, and one that carries bytes fits
the stream's window, as they were before it. -/
def FitsWindows (before : List Event) : Event → Prop
  | .sent (.data sid p _) => p.length ≤ maxFrameOf before ∧ (p.length : ℤ) ≤ connWindowOf before ∧
      (p ≠ [] → (p.length : ℤ) ≤ streamWindowOf before sid)
  | _ => True

section Journal

variable {j evs : List Event} {s : ℕ}

theorem initialWindowOf_snoc (j : List Event) (e : Event) : initialWindowOf (j ++ [e]) =
    match e with | .initialWindow v => (v : ℤ) | _ => initialWindowOf j := by
  rw [initialWindowOf, List.foldl_append]
  rfl

theorem maxFrameOf_snoc (j : List Event) (e : Event) : maxFrameOf (j ++ [e]) =
    match e with | .maxFrame v => v | _ => maxFrameOf j := by
  rw [maxFrameOf, List.foldl_append]
  rfl

/-- All windows are the same after both. -/
structure SameWindows (j k : List Event) : Prop where
  conn : connWindowOf k = connWindowOf j
  initial : initialWindowOf k = initialWindowOf j
  maxFrame : maxFrameOf k = maxFrameOf j
  stream : ∀ s, streamWindowOf k s = streamWindowOf j s

theorem sameWindows_snoc {e : Event} (h : e.isAside = true) : SameWindows j (j ++ [e]) := by
  have hz : connGrant e = 0 ∧ dataSize e = 0 ∧ ∀ s, streamGrant s e = 0 ∧ dataSizeOn s e = 0 := by
    cases e with
    | sent f => cases f <;> first | exact ⟨rfl, rfl, fun _ => ⟨rfl, rfl⟩⟩ | cases h
    | _ => first | exact ⟨rfl, rfl, fun _ => ⟨rfl, rfl⟩⟩ | cases h
  have hi : initialWindowOf (j ++ [e]) = initialWindowOf j := by
    rw [initialWindowOf_snoc]
    cases e <;> first | rfl | cases h
  have hm : maxFrameOf (j ++ [e]) = maxFrameOf j := by
    rw [maxFrameOf_snoc]
    cases e <;> first | rfl | cases h
  refine ⟨?_, hi, hm, fun s => ?_⟩
  · simp [connWindowOf, hz]
  · simp [streamWindowOf, hi, hz]

theorem sameWindows_append (h : ∀ e ∈ evs, e.isAside = true) : SameWindows j (j ++ evs) := by
  induction evs generalizing j with
  | nil =>
    rw [List.append_nil]
    exact ⟨rfl, rfl, rfl, fun _ => rfl⟩
  | cons e evs ih =>
    have h1 : SameWindows j (j ++ [e]) := sameWindows_snoc (h e List.mem_cons_self)
    have h2 := ih (j := j ++ [e]) (fun e he => h e (List.mem_cons_of_mem _ he))
    rw [List.append_assoc, List.singleton_append] at h2
    exact ⟨h2.conn.trans h1.conn, h2.initial.trans h1.initial, h2.maxFrame.trans h1.maxFrame,
      fun s => (h2.stream s).trans (h1.stream s)⟩

theorem fitsWindows_aside {e : Event} (h : e.isAside = true) (before : List Event) :
    FitsWindows before e := by
  cases e with
  | sent f =>
    cases f with
    | data sid p last => cases h
    | _ => trivial
  | _ => trivial

end Journal

/-! ### Bursts -/

section Burst

variable {j : List Event} {sid : ℕ} {chunks : List Bytes} {last : Bool}

/-- The events of a burst. -/
def burstEvents (sid : ℕ) (chunks : List Bytes) (last : Bool) : List Event :=
  chunks.map (fun x => .sent (.data sid x last))

theorem tally_burst (sid : ℕ) (chunks : List Bytes) (last : Bool) :
    tally connGrant (burstEvents sid chunks last) = 0 ∧
      tally dataSize (burstEvents sid chunks last) = burstSize chunks ∧
      ∀ s, tally (streamGrant s) (burstEvents sid chunks last) = 0 ∧
        tally (dataSizeOn s) (burstEvents sid chunks last) =
          if sid = s then burstSize chunks else 0 := by
  induction chunks with
  | nil => exact ⟨rfl, rfl, fun s => ⟨rfl, by split_ifs <;> rfl⟩⟩
  | cons x xs ih =>
    obtain ⟨h1, h2, h3⟩ := ih
    simp only [burstEvents, List.map_cons, tally_cons, burstSize_cons]
    simp only [burstEvents] at h1 h2 h3
    refine ⟨by rw [h1]; rfl, by rw [h2]; rfl, fun s => ⟨by rw [(h3 s).1]; rfl, ?_⟩⟩
    rw [(h3 s).2]
    simp only [dataSizeOn]
    split_ifs <;> rfl

/-- What no DATA frame changes, a burst does not change. -/
theorem burst_congr {α : Type} {f : List Event → α}
    (hf : ∀ j x, f (j ++ [.sent (.data sid x last)]) = f j) :
    f (j ++ burstEvents sid chunks last) = f j := by
  induction chunks generalizing j with
  | nil => rw [burstEvents, List.map_nil, List.append_nil]
  | cons x xs ih =>
    have h := ih (j := j ++ [.sent (.data sid x last)])
    rw [List.append_assoc, hf] at h
    exact h

theorem initialWindowOf_burst : initialWindowOf (j ++ burstEvents sid chunks last) =
    initialWindowOf j :=
  burst_congr fun _ _ => initialWindowOf_snoc _ _

theorem maxFrameOf_burst : maxFrameOf (j ++ burstEvents sid chunks last) = maxFrameOf j :=
  burst_congr fun _ _ => maxFrameOf_snoc _ _

theorem connWindowOf_burst : connWindowOf (j ++ burstEvents sid chunks last) =
    connWindowOf j - burstSize chunks := by
  obtain ⟨h1, h2, -⟩ := tally_burst sid chunks last
  simp only [connWindowOf, tally_append, h1, h2]
  push_cast
  ring

theorem streamWindowOf_burst (s : ℕ) : streamWindowOf (j ++ burstEvents sid chunks last) s =
    streamWindowOf j s - if sid = s then burstSize chunks else 0 := by
  obtain ⟨-, -, h⟩ := tally_burst sid chunks last
  simp only [streamWindowOf, tally_append, initialWindowOf_burst, (h s).1, (h s).2]
  push_cast
  ring

theorem burstSize_append (xs ys : List Bytes) :
    burstSize (xs ++ ys) = burstSize xs + burstSize ys := by
  simp [burstSize]

theorem fitsWindows_burst (hj : Each FitsWindows j) (hchunk : ∀ x ∈ chunks, x.length ≤ maxFrameOf j)
    (hconn : (burstSize chunks : ℤ) ≤ connWindowOf j)
    (hstream : (burstSize chunks : ℤ) ≤ streamWindowOf j sid) :
    Each FitsWindows (j ++ burstEvents sid chunks last) := by
  refine hj.append (fun before e after h => ?_)
  obtain ⟨xs, ys', rfl, rfl, h'⟩ := List.map_eq_append_iff.mp h
  obtain ⟨x, ys, rfl, rfl, rfl⟩ := List.map_eq_cons_iff.mp h'
  have hx := hchunk x (by simp)
  rw [burstSize_append, burstSize_cons] at hconn hstream
  refine ⟨?_, ?_, fun _ => ?_⟩
  · change x.length ≤ maxFrameOf (j ++ burstEvents sid xs last)
    rwa [maxFrameOf_burst]
  · change (x.length : ℤ) ≤ connWindowOf (j ++ burstEvents sid xs last)
    rw [connWindowOf_burst]
    omega
  · change (x.length : ℤ) ≤ streamWindowOf (j ++ burstEvents sid xs last) sid
    rw [streamWindowOf_burst, if_pos rfl]
    omega

end Burst

/-! ### The invariant -/

/-- The windows of the code are those of the journal. -/
structure Conn.Balanced (c : Conn) : Prop where
  conn : c.connSendWindow = connWindowOf c.journal
  initial : c.peerInitialWindow = initialWindowOf c.journal
  maxFrame : (c.peerMaxFrame : ℕ) = maxFrameOf c.journal
  stream : ∀ s st, c.stream? s = some st → s ≤ c.lastStreamId ∧
    st.sendWindow = streamWindowOf c.journal s
  fresh : ∀ s, c.lastStreamId < s → streamWindowOf c.journal s = initialWindowOf c.journal
  frames : Each FitsWindows c.journal

/-- The windows, apart from those of the streams. -/
structure WindowView where
  connSendWindow : ℤ
  peerInitialWindow : ℤ
  peerMaxFrame : MaxFrame

def Conn.windowView (c : Conn) : WindowView where
  connSendWindow := c.connSendWindow
  peerInitialWindow := c.peerInitialWindow
  peerMaxFrame := c.peerMaxFrame

/-- A step that leaves all windows alone. -/
structure WindowsStay (a b : Conn) : Prop where
  view : b.windowView = a.windowView
  last : a.lastStreamId ≤ b.lastStreamId
  stream : ∀ s st', b.stream? s = some st' → ∃ st, a.stream? s = some st ∧
    st'.sendWindow = st.sendWindow
  journal : ∃ evs, b.journal = a.journal ++ evs ∧ ∀ e ∈ evs, e.isAside = true

section Stay

variable {a b c : Conn}

theorem WindowsStay.of_streams (hv : b.windowView = a.windowView)
    (hl : a.lastStreamId ≤ b.lastStreamId) (hs : b.streams = a.streams) {evs : List Event}
    (hj : b.journal = a.journal ++ evs) (he : ∀ e ∈ evs, e.isAside = true) : WindowsStay a b where
  view := hv
  last := hl
  stream s st h := ⟨st, by rw [← h, Conn.stream?, Conn.stream?, hs], rfl⟩
  journal := ⟨evs, hj, he⟩

theorem WindowsStay.note {e : Event} (h : e.isAside = true) : WindowsStay c (c.note e) :=
  .of_streams rfl (le_refl _) rfl rfl (fun _ he => List.mem_singleton.mp he ▸ h)

theorem WindowsStay.trans (h1 : WindowsStay a b) (h2 : WindowsStay b c) : WindowsStay a c where
  view := h2.view.trans h1.view
  last := h1.last.trans h2.last
  stream s st'' h := by
    obtain ⟨st', h', e'⟩ := h2.stream s st'' h
    obtain ⟨st, hs, e⟩ := h1.stream s st' h'
    exact ⟨st, hs, e'.trans e⟩
  journal := by
    obtain ⟨evs1, hj1, he1⟩ := h1.journal
    obtain ⟨evs2, hj2, he2⟩ := h2.journal
    refine ⟨evs1 ++ evs2, by rw [hj2, hj1, List.append_assoc], fun e he => ?_⟩
    exact (List.mem_append.mp he).elim (he1 e) (he2 e)

theorem WindowsStay.connError (c : Conn) (err : ErrCode) : WindowsStay c (c.connError err) := by
  have hl := ledger_connError c err
  refine .of_streams ?_ (le_of_eq ?_) (Conn.streams_connError c err)
    (congrArg Ledger.journal hl) (List.forall_mem_singleton.mpr rfl)
  · unfold Conn.windowView
    rw [show (c.connError err).connSendWindow = c.connSendWindow from
      congrArg Ledger.connSendWindow hl,
      show (c.connError err).peerInitialWindow = c.peerInitialWindow from
      congrArg Ledger.peerInitialWindow hl,
      show (c.connError err).peerMaxFrame = c.peerMaxFrame from congrArg Ledger.peerMaxFrame hl]
  · exact (congrArg Ledger.lastStreamId hl).symm

theorem WindowsStay.noteDataProgress (c : Conn) (n frames : ℕ) :
    WindowsStay c (c.noteDataProgress n frames) := by
  obtain ⟨k, d, w, y, e⟩ := noteDataProgress_eq c n frames
  rw [e]
  exact .of_streams rfl (le_refl _) rfl (List.append_nil _).symm (fun e he => by cases he)

theorem Conn.Balanced.stay (h : a.Balanced) (hs : WindowsStay a b) : b.Balanced := by
  obtain ⟨evs, hj, he⟩ := hs.journal
  have hw := sameWindows_append (j := a.journal) he
  rw [← hj] at hw
  have hv := hs.view
  simp only [Conn.windowView, WindowView.mk.injEq] at hv
  refine ⟨?_, ?_, ?_, fun s st' hst' => ?_, fun s hlt => ?_, ?_⟩
  · rw [hv.1, h.conn, hw.conn]
  · rw [hv.2.1, h.initial, hw.initial]
  · rw [hv.2.2, h.maxFrame, hw.maxFrame]
  · obtain ⟨st, hst, e⟩ := hs.stream s st' hst'
    obtain ⟨hle, hwin⟩ := h.stream s st hst
    exact ⟨hle.trans hs.last, by rw [e, hwin, hw.stream]⟩
  · rw [hw.stream, hw.initial]
    exact h.fresh s (hs.last.trans_lt hlt)
  · rw [hj]
    exact h.frames.append_of (fun e hm => fitsWindows_aside (he e hm))

end Stay

section Entries

variable {a b c : Conn} {sid : ℕ}

theorem journal_sendData (c : Conn) (sid : ℕ) (chunks : List Bytes) (last : Bool) :
    (c.sendData sid chunks last).journal = c.journal ++ burstEvents sid chunks last := by
  simp [Conn.sendData, Conn.sendAll, Conn.modify, burstEvents]

theorem Conn.Balanced.burst {st : Stream} {chunks : List Bytes} (last : Bool) (h : c.Balanced)
    (hr : c.Ranged) (ha : c.Allows sid st chunks) : (c.burst sid chunks last).Balanced := by
  refine Conn.Balanced.stay ?_ (WindowsStay.noteDataProgress _ _ _)
  have hj := journal_sendData c sid chunks last
  refine ⟨?_, ?_, ?_, ?_, fun s hlt => ?_, ?_⟩
  · rw [hj, connWindowOf_burst, ← h.conn]
    exact hr.sub_conn ha
  · rw [hj, initialWindowOf_burst]
    exact h.initial
  · rw [hj, maxFrameOf_burst]
    exact h.maxFrame
  · rw [hj]
    refine updates_sendData.forall_stream (fun st' hs => ?_) (fun s st' hne hs => ?_)
    · obtain rfl := Option.some.inj (hs.symm.trans ha.stream)
      refine ⟨(h.stream sid st' hs).1, ?_⟩
      rw [streamWindowOf_burst, if_pos rfl, ← (h.stream sid st' hs).2]
      exact hr.sub_stream ha
    · refine ⟨(h.stream s st' hs).1, ?_⟩
      rw [streamWindowOf_burst, if_neg (Ne.symm hne), Nat.cast_zero, Int.sub_zero]
      exact (h.stream s st' hs).2
  · have hne : sid ≠ s := by
      rintro rfl
      exact absurd (h.stream sid st ha.stream).1 (not_le.mpr hlt)
    rw [hj, streamWindowOf_burst, initialWindowOf_burst, if_neg hne, Nat.cast_zero,
      Int.sub_zero]
    exact h.fresh s hlt
  · rw [hj]
    refine fitsWindows_burst h.frames (fun x hx => ?_) ?_ ?_
    · rw [← h.maxFrame]
      exact (ha.chunk x hx).2
    · rw [← h.conn]
      exact ha.conn
    · rw [← (h.stream sid st ha.stream).2]
      exact ha.window

theorem Conn.Balanced.bareEnd (h : c.Balanced) (hr : c.Ranged) (sid : ℕ) :
    (c.sendEnd sid).Balanced := by
  have hzero : ∀ s, dataSizeOn s (.sent (.data sid [] true)) = 0 := by
    intro s
    simp [dataSizeOn]
  have hconn : connWindowOf (c.sendEnd sid).journal = connWindowOf c.journal := by
    simp [connWindowOf, Conn.sendEnd, Conn.send, Conn.note, connGrant, dataSize]
  have hi : initialWindowOf (c.sendEnd sid).journal = initialWindowOf c.journal :=
    initialWindowOf_snoc _ _
  have hs : ∀ s, streamWindowOf (c.sendEnd sid).journal s = streamWindowOf c.journal s := by
    intro s
    rw [streamWindowOf, hi]
    simp [streamWindowOf, Conn.sendEnd, Conn.send, Conn.note, streamGrant, hzero]
  refine ⟨?_, ?_, ?_, fun s st hst => ?_, fun s hlt => ?_, ?_⟩
  · rw [hconn]
    exact h.conn
  · rw [hi]
    exact h.initial
  · exact h.maxFrame.trans (maxFrameOf_snoc c.journal (.sent (.data sid [] true))).symm
  · rw [hs]
    exact h.stream s st hst
  · rw [hs, hi]
    exact h.fresh s hlt
  · refine each_snoc.mpr ⟨h.frames, Nat.zero_le _, ?_, fun hne => absurd rfl hne⟩
    rw [← h.conn]
    exact hr.conn.1

theorem Conn.Balanced.openNew (h : c.Balanced) (hlt : c.lastStreamId < sid) :
    (Conn.openStream { c with lastStreamId := sid } sid).Balanced := by
  have hstream := @stream_openStream { c with lastStreamId := sid } sid
  obtain ⟨u, i, p, e⟩ := openStream_eq { c with lastStreamId := sid } sid
  rw [e] at hstream ⊢
  have hw : SameWindows c.journal (c.journal ++ [.opened sid]) := sameWindows_snoc rfl
  refine ⟨?_, ?_, ?_, fun s st hst => ?_, fun s hs => ?_, ?_⟩
  · rw [hw.conn]
    exact h.conn
  · rw [hw.initial]
    exact h.initial
  · rw [hw.maxFrame]
    exact h.maxFrame
  · rw [hw.stream]
    rcases hstream hst with ⟨rfl, u, i, rfl⟩ | ⟨-, hst⟩
    · refine ⟨le_refl _, ?_⟩
      rw [h.fresh s hlt, ← h.initial]
      rfl
    · obtain ⟨hle, hwin⟩ := h.stream s st hst
      exact ⟨hle.trans hlt.le, hwin⟩
  · rw [hw.stream, hw.initial]
    exact h.fresh s (hlt.trans hs)
  · exact each_snoc.mpr ⟨h.frames, trivial⟩

theorem Conn.Balanced.connCredit (h : c.Balanced) (hr : c.Ranged) {inc : ℕ}
    (hinc : c.connSendWindow + inc ≤ 0x7fffffff) :
    (Conn.note { c with connSendWindow := int32 (c.connSendWindow + inc) }
      (.connCredit inc)).Balanced := by
  have hi : initialWindowOf (c.journal ++ [.connCredit inc]) = initialWindowOf c.journal :=
    initialWindowOf_snoc _ _
  have hs : ∀ s, streamWindowOf (c.journal ++ [.connCredit inc]) s = streamWindowOf c.journal s := by
    intro s
    rw [streamWindowOf, hi]
    simp [streamWindowOf, streamGrant, dataSizeOn]
  refine ⟨?_, ?_, ?_, fun s st hst => ?_, fun s hlt => ?_, ?_⟩
  · have hw := hr.conn
    change int32 _ = connWindowOf (c.journal ++ [.connCredit inc])
    rw [int32_of_range (by omega) (by omega), h.conn]
    simp [connWindowOf, connGrant, dataSize]
    ring
  · exact h.initial.trans hi.symm
  · exact h.maxFrame.trans (maxFrameOf_snoc c.journal (.connCredit inc)).symm
  · obtain ⟨hle, hwin⟩ := h.stream s st hst
    exact ⟨hle, hwin.trans (hs s).symm⟩
  · exact (hs s).trans ((h.fresh s hlt).trans hi.symm)
  · exact each_snoc.mpr ⟨h.frames, trivial⟩

theorem Conn.Balanced.streamCredit (h : c.Balanced) (hr : c.Ranged) {st : Stream}
    (hst : c.stream? sid = some st) {inc : ℕ} (hinc : st.sendWindow + inc ≤ 0x7fffffff) :
    ((c.note (.streamCredit sid inc)).modify sid (fun st => { st with
      sendWindow := int32 (st.sendWindow + inc) })).Balanced := by
  have hi : initialWindowOf (c.journal ++ [.streamCredit sid inc]) = initialWindowOf c.journal :=
    initialWindowOf_snoc _ _
  have hs : ∀ s, streamWindowOf (c.journal ++ [.streamCredit sid inc]) s =
      streamWindowOf c.journal s + if sid = s then inc else 0 := by
    intro s
    rw [streamWindowOf, hi]
    simp only [streamWindowOf, tally_append, tally_cons, tally_nil, streamGrant, dataSizeOn]
    push_cast
    ring
  refine ⟨?_, h.initial.trans hi.symm, h.maxFrame.trans (maxFrameOf_snoc c.journal (.streamCredit sid inc)).symm, ?_,
    fun s hlt => ?_, each_snoc.mpr ⟨h.frames, trivial⟩⟩
  · change c.connSendWindow = connWindowOf (c.journal ++ [.streamCredit sid inc])
    rw [h.conn]
    simp [connWindowOf, connGrant, dataSize]
  · refine (Updates.modify (c.note (.streamCredit sid inc)) sid (fun st => { st with
      sendWindow := int32 (st.sendWindow + inc) })).forall_stream (fun st' hst' => ?_)
      (fun s st' hne hst' => ?_)
    · obtain rfl := Option.some.inj (hst.symm.trans hst')
      refine ⟨(h.stream sid st hst).1, ?_⟩
      have hw := hr.stream sid st hst
      change int32 _ = streamWindowOf (c.journal ++ [.streamCredit sid inc]) sid
      rw [hs, if_pos rfl, ← (h.stream sid st hst).2]
      exact int32_of_range (by omega) (by omega)
    · obtain ⟨hle, hwin⟩ := h.stream s st' hst'
      refine ⟨hle, ?_⟩
      change _ = streamWindowOf (c.journal ++ [.streamCredit sid inc]) s
      rw [hs, if_neg (Ne.symm hne), hwin, Nat.cast_zero, Int.add_zero]
  · change streamWindowOf (c.journal ++ [.streamCredit sid inc]) s =
      initialWindowOf (c.journal ++ [.streamCredit sid inc])
    have hne : sid ≠ s := by
      rintro rfl
      exact absurd (h.stream sid st hst).1 (not_le.mpr hlt)
    rw [hs, hi, if_neg hne, h.fresh s hlt, Nat.cast_zero, Int.add_zero]

theorem Conn.Balanced.initialWindow (h : a.Balanced) (hr : a.Ranged) {value : ℕ}
    (hv : value ≤ 0x7fffffff) (hl : b.ledger = (a.setInitial value).ledger)
    (hs : ∀ s st', b.stream? s = some st' → ∃ st, a.stream? s = some st ∧
      InRange st'.sendWindow ∧ st'.sendWindow = st.sendWindow + int32 (value - a.peerInitialWindow)) :
    b.Balanced := by
  have hj : b.journal = a.journal ++ [.initialWindow value] := congrArg Ledger.journal hl
  have hlast : b.lastStreamId = a.lastStreamId := congrArg Ledger.lastStreamId hl
  have hi : initialWindowOf (a.journal ++ [.initialWindow value]) = value :=
    initialWindowOf_snoc _ _
  have hw : ∀ s, streamWindowOf (a.journal ++ [.initialWindow value]) s =
      streamWindowOf a.journal s + (value - initialWindowOf a.journal) := by
    intro s
    rw [streamWindowOf, hi]
    simp only [streamWindowOf, tally_append, tally_cons, tally_nil, streamGrant, dataSizeOn]
    push_cast
    ring
  refine ⟨?_, ?_, ?_, fun s st' hst' => ?_, fun s hlt => ?_, ?_⟩
  · rw [hj, show b.connSendWindow = a.connSendWindow from congrArg Ledger.connSendWindow hl, h.conn]
    simp [connWindowOf, connGrant, dataSize]
  · rw [hj, hi]
    exact congrArg Ledger.peerInitialWindow hl
  · rw [hj, maxFrameOf_snoc, ← h.maxFrame]
    exact congrArg (fun v => (Ledger.peerMaxFrame v : ℕ)) hl
  · obtain ⟨st, hst, -, e⟩ := hs s st' hst'
    obtain ⟨hle, hwin⟩ := h.stream s st hst
    have hrange := hr.initial
    refine ⟨hlast ▸ hle, ?_⟩
    rw [hj, hw, e, int32_of_range (by omega) (by omega), hwin, h.initial]
  · rw [hlast] at hlt
    rw [hj, hw, hi, h.fresh s hlt]
    ring
  · rw [hj]
    exact each_snoc.mpr ⟨h.frames, trivial⟩

theorem Conn.Balanced.maxFrameSize (h : c.Balanced) (m : MaxFrame) :
    (Conn.note { c with peerMaxFrame := m } (.maxFrame m)).Balanced := by
  have hi : initialWindowOf (c.journal ++ [.maxFrame m]) = initialWindowOf c.journal :=
    initialWindowOf_snoc _ _
  have hs : ∀ s, streamWindowOf (c.journal ++ [.maxFrame m]) s = streamWindowOf c.journal s := by
    intro s
    rw [streamWindowOf, hi]
    simp [streamWindowOf, streamGrant, dataSizeOn]
  refine ⟨?_, h.initial.trans hi.symm, (maxFrameOf_snoc c.journal (.maxFrame m)).symm, fun s st hst => ?_,
    fun s hlt => (hs s).trans ((h.fresh s hlt).trans hi.symm), each_snoc.mpr ⟨h.frames, trivial⟩⟩
  · change c.connSendWindow = connWindowOf (c.journal ++ [.maxFrame m])
    rw [h.conn]
    simp [connWindowOf, connGrant, dataSize]
  · obtain ⟨hle, hwin⟩ := h.stream s st hst
    exact ⟨hle, hwin.trans (hs s).symm⟩

theorem WindowsStay.refl (c : Conn) : WindowsStay c c :=
  .of_streams rfl (le_refl _) rfl (List.append_nil _).symm (fun e he => by cases he)

theorem WindowsStay.h2GoawayNotice (c : Conn) : WindowsStay c c.h2GoawayNotice := by
  unfold Conn.h2GoawayNotice
  split_ifs
  · exact .refl c
  · exact .of_streams rfl (le_refl _) rfl rfl (List.forall_mem_singleton.mpr rfl)

theorem WindowsStay.h2Goaway (c : Conn) (err : ErrCode) : WindowsStay c (c.h2Goaway err) := by
  unfold Conn.h2Goaway
  split_ifs
  · exact .refl c
  · exact .of_streams rfl (le_refl _) rfl rfl (List.forall_mem_singleton.mpr rfl)

theorem WindowsStay.emitBlock (c : Conn) (sid : ℕ) (fields : Bytes) (es : Bool) :
    WindowsStay c (c.emitBlock sid fields es) := by
  refine .of_streams rfl (le_refl _) rfl rfl ?_
  exact Block.forall ⟨_, _, rfl⟩ (fun _ _ => rfl) (fun _ _ => rfl)

theorem WindowsStay.dispatch {st : Stream} (hs : c.stream? sid = some st) :
    WindowsStay c (c.dispatch sid) := by
  have h1 : WindowsStay c (c.noteDispatch sid) := by
    unfold Conn.noteDispatch
    rw [hs]
    exact .note rfl
  have hu : Updates (c.noteDispatch sid) (c.dispatch sid) sid
    (fun st => { st with dispatched := true }) := Updates.of_streams rfl
  refine h1.trans ⟨rfl, le_refl _, ?_, [], (List.append_nil _).symm, fun e he => by cases he⟩
  exact hu.forall_stream (P := fun s st' => ∃ st, (c.noteDispatch sid).stream? s = some st ∧
    st'.sendWindow = st.sendWindow) (fun st' h => ⟨st', h, rfl⟩) (fun s st' _ h => ⟨st', h, rfl⟩)

theorem isAside_of_isFree {e : Event} (h : e.isFree = true) : e.isAside = true := by
  cases e with
  | sent f => cases f <;> first | rfl | cases h
  | _ => first | rfl | cases h

theorem Conn.Balanced.entry (h : Entry a b) (hr : a.Ranged) (hb : b.closing = false)
    (ha : a.Balanced) : b.Balanced := by
  cases h with
  | basic h =>
    cases h with
    | note he => exact ha.stay (.note (isAside_of_isFree he))
    | bareEnd sid => exact ha.bareEnd hr sid
    | block sid fields es => exact ha.stay (.emitBlock a sid fields es)
    | charge n =>
      exact ha.stay (noteControlFrame_kept (fun c err h => h.trans (.connError c err))
        (.of_streams rfl (le_refl _) rfl rfl (List.forall_mem_singleton.mpr rfl)))
    | spend h =>
      exact ha.stay (.of_streams rfl (le_refl _) rfl rfl
        (List.forall_mem_singleton.mpr rfl))
    | error err => exact ha.stay (.connError a err)
    | countReset =>
      exact ha.stay (countReset_kept (fun c err h => h.trans (.connError c err))
        (.of_streams rfl (le_refl _) rfl (List.append_nil _).symm (fun e he => by cases he)))
    | openNew h hodd hg hn => exact ha.openNew h
    | refuse h hn =>
      exact ha.stay (.of_streams rfl h.le rfl (List.append_nil _).symm (fun e he => by cases he))
    | connCredit inc h => exact ha.connCredit hr h
    | streamCredit hs inc h => exact ha.streamCredit hr hs h
    | maxFrame m => exact ha.maxFrameSize m
    | tableSize value =>
      refine ha.stay ?_
      unfold Conn.applyTableSize
      dsimp only
      split_ifs
      · exact .of_streams rfl (le_refl _) rfl rfl (List.forall_mem_singleton.mpr rfl)
      · exact .note rfl
  | other hl hs =>
    refine ha.stay ⟨?_, le_of_eq (congrArg Ledger.lastStreamId hl).symm, hs, [], ?_,
      fun e he => by cases he⟩
    · unfold Conn.windowView
      rw [show b.connSendWindow = a.connSendWindow from congrArg Ledger.connSendWindow hl,
        show b.peerInitialWindow = a.peerInitialWindow from
        congrArg Ledger.peerInitialWindow hl,
        show b.peerMaxFrame = a.peerMaxFrame from congrArg Ledger.peerMaxFrame hl]
    · rw [List.append_nil]
      exact congrArg Ledger.journal hl
  | burst last h => exact ha.burst last hr h
  | goawayNotice => exact ha.stay (.h2GoawayNotice a)
  | goaway err => exact ha.stay (.h2Goaway a err)
  | dispatch hs hd => exact ha.stay (.dispatch hs)
  | initialWindow hv hl hs => exact ha.initialWindow hr hv hl hs
  | initialWindowFailed hv hl hs =>
    rw [ledger_connError] at hl
    rw [show b.closing = true from congrArg Ledger.closing hl] at hb
    cases hb

end Entries

/-! ### Whole runs -/

theorem Reachable.balanced {W : World} {ok : Call → Conn → Prop} (hW : W.Obeys ok) {cfg : Config}
    {n : ℕ} {c : Conn} (h : Reachable (W.hooks n) ok cfg c) :
    c.Ranged ∧ (c.closing = false → c.Balanced) := by
  refine ⟨h.ranged hW, h.accounts hW (I := fun c => c.closing = false → c.Balanced)
    (fun _ => ?_) ?_ ?_⟩
  · exact ⟨rfl, rfl, rfl, fun s st hs => (by cases hs), fun _ _ => rfl, each_nil⟩
  · intro a b he hr ha hb
    exact Conn.Balanced.entry he hr hb (ha (he.open_of_open hb))
  · intro c f rest hc _ _ ha _
    exact (ha hc).stay (.of_streams rfl (le_refl _) rfl rfl
      (List.forall_mem_singleton.mpr rfl))

/-- A response of two bytes goes out, the peer lowers the initial window, and the response is
ended. -/
def loweredWindow : List Input :=
  feedInputs [.headers 1 postBlock true true] ++
    [.call (.sendHead 1 { code := 200 } (-1)), .call (.write 1 (ascii "ab")),
      .bytes (Frame.settings [(setInitialWindowSize, 0)]).bytes, .feed, .call (.finish 1 [])]

end Vortex.Http2

import Vortex.Http2.Ledger

/-! # The header decoder follows the peer's encoder

HPACK is stateful: the peer refers to entries of a table that it expects the server to have built
from the field blocks sent before.  A server that skips one block, decodes one twice or decodes
half of one reads every later request of the connection wrongly.

`Assembly` reads the field blocks off a sequence of frames without looking at streams: a HEADERS
frame opens a block with its fragment, a CONTINUATION frame adds its payload, END_HEADERS completes
it.  `decodeBlocks` decodes complete blocks one after the other, from the decoder of a new
connection, and fails when a block does.

`decoder_follows_the_peer`: while the connection is not closing, its decoder is what decoding the
complete blocks of all the frames received gives.  Which streams the blocks were for, and what
became of these streams, does not enter: a refused, reset, half-closed, answered or deleted stream
has its block decoded all the same.

The invariant `Synced` relates the block the connection is reading (`BlockView`) to the assembly;
calls of the application and all frames but HEADERS and CONTINUATION leave both alone. -/

namespace Vortex.Http2

/-! ### Field blocks on the wire -/

/-- The fragment a HEADERS frame carries: the payload without padding and priority. -/
def wireFragment (f : InFrame) : Bytes :=
  let body := if f.header.has flagPadded then
      (f.payload.drop 1).take (f.payload.length - 1 - byteAt f.payload 0)
    else f.payload
  if f.header.has flagPriority then body.drop 5 else body

/-- The field blocks that a sequence of frames completes, and the one it leaves open. -/
structure Assembly where
  done : List Bytes := []
  part : Option Bytes := none

/-- The block under way is `block` after the frame `f`. -/
def Assembly.extend (a : Assembly) (f : InFrame) (block : Bytes) : Assembly :=
  if f.header.has flagEndHeaders then { done := a.done ++ [block], part := none }
  else { a with part := some block }

def Assembly.frame (a : Assembly) (f : InFrame) : Assembly :=
  match FrameType.ofCode f.header.typ with
  | some .ftHeaders => a.extend f (wireFragment f)
  | some .ftContinuation => a.extend f (a.part.getD [] ++ f.payload)
  | _ => a

def assembly (fs : List InFrame) : Assembly := fs.foldl Assembly.frame {}

/-- The complete field blocks of a sequence of frames, in the order they were completed. -/
def fieldBlocks (fs : List InFrame) : List Bytes := (assembly fs).done

theorem assembly_concat (fs : List InFrame) (f : InFrame) :
    assembly (fs ++ [f]) = (assembly fs).frame f := by
  simp [assembly]

/-- Decode a whole block. -/
def decodeWhole (d : HpackDecoder) (block : Bytes) : Option HpackDecoder :=
  match decodeHeaderBlock d block with
  | (d', .ok _) => some d'
  | (_, .error _) => none

/-- Decode blocks one after the other. -/
def decodeBlocks (d : HpackDecoder) (blocks : List Bytes) : Option HpackDecoder :=
  blocks.foldlM decodeWhole d

variable {f : InFrame} {block : Bytes} {d₀ : HpackDecoder} {v : BlockView} {a : Assembly}

theorem decodeBlocks_concat {d d1 d2 : HpackDecoder} {blocks : List Bytes} {fields : Fields}
    (h : decodeBlocks d blocks = some d1) (hb : decodeHeaderBlock d1 block = (d2, .ok fields)) :
    decodeBlocks d (blocks ++ [block]) = some d2 := by
  unfold decodeBlocks at h ⊢
  rw [List.foldlM_append, h]
  simp [decodeWhole, hb]

theorem unpadHeaders_ok {frag : Bytes} (h : unpadHeaders f = .ok frag) :
    frag = if f.header.has flagPadded then
        (f.payload.drop 1).take (f.payload.length - 1 - byteAt f.payload 0)
      else f.payload := by
  unfold unpadHeaders at h
  dsimp only at h
  split_ifs at h with hpad hlen hmore
  · rw [if_pos hpad, f.length_eq]
    exact (Except.ok.inj h).symm
  · rw [if_neg hpad]
    exact (Except.ok.inj h).symm

theorem headersFragment_ok {frag : Bytes} {selfDep : Bool}
    (h : headersFragment f = .ok (frag, selfDep)) : frag = wireFragment f := by
  unfold headersFragment at h
  unfold wireFragment
  split at h
  · cases h
  · next body hbody =>
    rw [← unpadHeaders_ok hbody]
    split_ifs at h ⊢
    · exact (Prod.mk.inj (Except.ok.inj h)).1.symm
    · exact (Prod.mk.inj (Except.ok.inj h)).1.symm

/-! ### The block being read -/

/-- The decoder has decoded the complete blocks, and the open one is under way. -/
structure Synced (d₀ : HpackDecoder) (v : BlockView) (a : Assembly) : Prop where
  decoded : decodeBlocks d₀ a.done = some v.decoder
  idle : v.contStream = 0 → a.part = none
  reading : v.contStream ≠ 0 → a.part = some v.headerBlock

theorem Synced.extend_more {v' : BlockView} (h : Synced d₀ v a)
    (he : f.header.has flagEndHeaders = false) (hd : v'.decoder = v.decoder)
    (hc : v'.contStream ≠ 0) (hb : v'.headerBlock = block) : Synced d₀ v' (a.extend f block) := by
  have hext : a.extend f block = { a with part := some block } := by
    unfold Assembly.extend
    rw [he]
    rfl
  rw [hext]
  exact ⟨h.decoded.trans (congrArg some hd.symm), fun h0 => absurd h0 hc, fun _ => by rw [hb]⟩

theorem Synced.extend_done {d : HpackDecoder} {v' : BlockView} {fields : Fields} (h : Synced d₀ v a)
    (he : f.header.has flagEndHeaders = true)
    (hb : decodeHeaderBlock v.decoder block = (d, .ok fields)) (hd : v'.decoder = d)
    (hc : v'.contStream = 0) : Synced d₀ v' (a.extend f block) := by
  have hext : a.extend f block = { done := a.done ++ [block], part := none } := by
    unfold Assembly.extend
    rw [if_pos he]
  rw [hext]
  exact ⟨(decodeBlocks_concat h.decoded hb).trans (congrArg some hd.symm), fun _ => rfl,
    fun h0 => absurd hc h0⟩

theorem Assembly.frame_other (hh : FrameType.ofCode f.header.typ ≠ some .ftHeaders)
    (hc : FrameType.ofCode f.header.typ ≠ some .ftContinuation) : a.frame f = a := by
  unfold Assembly.frame
  split
  · next h => exact absurd h hh
  · next h => exact absurd h hc
  · rfl

section Frames

variable {W : World} {ok : Call → Conn → Prop} (hW : W.Obeys ok) {n : ℕ} {c : Conn}

include hW

theorem finishHeaders_blockView (sid : ℕ) (es : Bool) (c : Conn)
    (hgo : ∀ st, c.stream? sid = some st → st.endStreamSeen = false) :
    (finishHeaders (W.hooks n) sid es c).closing = true ∨
      ∃ d fields, decodeHeaderBlock c.decoder c.headerBlock = (d, .ok fields) ∧
        (finishHeaders (W.hooks n) sid es c).blockView =
          { c.blockView with decoder := d, headerBlock := [] } := by
  have hfire := World.fire_posts hW n
  unfold finishHeaders
  split
  · exact .inl rfl
  · next d fields hd =>
    refine .inr ⟨d, fields, hd, ?_⟩
    dsimp only
    split
    · rfl
    · next st hs =>
      split_ifs with hh
      · exact (Path.blockView @Behaves.kept
          (finishTrailers_path hfire hs hh (hgo st hs) es fields)).trans rfl
      · exact (Path.blockView @Behaves.kept
          (finishHead_path hfire hs (by simpa using hh) es fields).data).trans rfl

theorem answerRefusal_blockView (sid : ℕ) (refuse : Refusal) (c : Conn) :
    (answerRefusal (W.hooks n) sid refuse c).blockView = c.blockView := by
  exact Path.blockView @Behaves.kept (answerRefusal_path (World.fire_posts hW n) sid refuse c).data

omit hW in
theorem answerRefusal_closing (H : Hooks) (sid : ℕ) (refuse : Refusal) (hc : c.closing = true) :
    (answerRefusal H sid refuse c).closing = true := by
  unfold answerRefusal
  split
  · rw [if_pos hc]
    exact hc
  · exact hc

theorem Synced.complete (h : Synced d₀ v a) (he : f.header.has flagEndHeaders = true) (sid : ℕ)
    (es : Bool) (refuse : Refusal) (hd : c.decoder = v.decoder) (h0 : c.contStream = 0)
    (hgo : ∀ st, c.stream? sid = some st → st.endStreamSeen = false) :
    (answerRefusal (W.hooks n) sid refuse (finishHeaders (W.hooks n) sid es c)).closing = true ∨
      Synced d₀
        (answerRefusal (W.hooks n) sid refuse (finishHeaders (W.hooks n) sid es c)).blockView
        (a.extend f c.headerBlock) := by
  rcases finishHeaders_blockView hW (n := n) sid es c hgo with hcl | ⟨d, fields, hdec, hview⟩
  · exact .inl (answerRefusal_closing _ _ _ hcl)
  · refine .inr ?_
    rw [answerRefusal_blockView hW, hview]
    rw [hd] at hdec
    exact h.extend_done he hdec rfl h0

theorem handleHeaders_synced (f : InFrame) (h : Synced d₀ c.blockView a) (h0 : c.contStream = 0)
    (ho : c.Opened) (hr : c.Ranged) (hn : c.Announces f.header.streamId) :
    (handleHeaders (W.hooks n) f c).closing = true ∨
      Synced d₀ (handleHeaders (W.hooks n) f c).blockView (a.extend f (wireFragment f)) := by
  have hfire := World.fire_posts hW n
  unfold handleHeaders
  dsimp only
  split
  · exact .inl rfl
  · next hid =>
    have hodd : f.header.streamId % 2 = 1 := by omega
    split
    · exact .inl rfl
    · next frag selfDep hfrag =>
      rw [← headersFragment_ok hfrag]
      have hview := Path.blockView @Behaves.kept (classifyHeaders_path hfire hodd selfDep
        (f.header.has flagEndStream) (c := { c with headerBlock := frag }) hn).data
      have hlast := classifyHeaders_last hW (n := n) (c := { c with headerBlock := frag }) ho
        (hr.of_streams rfl rfl rfl) f.header.streamId selfDep (f.header.has flagEndStream)
      split
      · next c1 hc =>
        rw [hc] at hlast
        exact .inl hlast
      · next c1 refuse hc =>
        rw [hc] at hview
        have hd1 : c1.decoder = c.decoder := congrArg BlockView.decoder hview
        have hb1 : c1.headerBlock = frag := congrArg BlockView.headerBlock hview
        have hs1 : c1.contStream = 0 := (congrArg BlockView.contStream hview).trans h0
        unfold headersComplete
        split
        · next he =>
          rw [← hb1]
          exact h.complete hW he _ _ _ hd1 hs1 (classifyHeaders_going hfire @Behaves.kept hc)
        · next he =>
          refine .inr (h.extend_more (by simpa using he) hd1 ?_ hb1)
          change f.header.streamId ≠ 0
          omega

theorem handleContinuation_synced (f : InFrame) (h : Synced d₀ c.blockView a) (hr : c.Reading) :
    (handleContinuation (W.hooks n) f c).closing = true ∨
      Synced d₀ (handleContinuation (W.hooks n) f c).blockView
        (a.extend f (a.part.getD [] ++ f.payload)) := by
  unfold handleContinuation
  split
  · exact .inl rfl
  · next hcont =>
    have h0 : c.contStream ≠ 0 := fun h0 => hcont (.inl h0)
    have hpart : a.part.getD [] = c.headerBlock := by rw [h.reading h0]; rfl
    rw [hpart]
    have hview : (c.noteControlFrame 1).blockView = c.blockView :=
      (frameMoves_noteControlFrame c 1).blockView
    have hr1 := hr.congr (contStream_noteControlFrame c 1) (Conn.streams_noteControlFrame c 1)
    rw [← hview] at h
    have hb1 : (c.noteControlFrame 1).headerBlock = c.headerBlock :=
      congrArg BlockView.headerBlock hview
    have hs1 : (c.noteControlFrame 1).contStream ≠ 0 := by
      rw [contStream_noteControlFrame]
      exact h0
    rw [← hb1]
    generalize c.noteControlFrame 1 = c1 at h hr1 hs1
    dsimp only
    split_ifs with hcl hlen he
    · exact .inl hcl
    · exact .inl rfl
    · exact h.complete hW (c := { c1 with
        headerBlock := c1.headerBlock ++ f.payload
        contStream := 0
        contRefuse := .none }) he _ _ _ rfl rfl (hr1 hs1)
    · exact .inr (h.extend_more (by simpa using he) rfl hs1 rfl)

theorem handleFrame_synced (f : InFrame) (h : Synced d₀ c.blockView a) (hr : c.Reading)
    (ho : c.Opened) (hg : c.Ranged) (hl : c.lastFrame = some f) :
    (handleFrame (W.hooks n) f c).closing = true ∨
      Synced d₀ (handleFrame (W.hooks n) f c).blockView (a.frame f) := by
  have hfire := World.fire_posts hW n
  have hsame : ∀ {c'}, Path (DataAtom anyCall) Behaves c c' →
      FrameType.ofCode f.header.typ ≠ some .ftHeaders →
      FrameType.ofCode f.header.typ ≠ some .ftContinuation →
      c'.closing = true ∨ Synced d₀ c'.blockView (a.frame f) := by
    intro c' hp hh hc
    rw [Path.blockView @Behaves.kept hp, Assembly.frame_other hh hc]
    exact .inr h
  unfold handleFrame
  split
  · exact .inl rfl
  · next hcont =>
    split
    · next ht =>
      exact hsame (handlePriorityUpdate_path f c).data (by rw [ht]; decide) (by rw [ht]; decide)
    · split
      · next ht => exact hsame (Path.ofFrame (.charge c 1)).data (by simp [ht]) (by simp [ht])
      · next ht => exact hsame (handleData_path hfire f c) (by simp [ht]) (by simp [ht])
      · next ht =>
        have h0 : c.contStream = 0 := by
          by_contra h0
          refine hcont ⟨h0, .inl fun hcode => ?_⟩
          rw [hcode] at ht
          cases ht
        have hframe : a.frame f = a.extend f (wireFragment f) := by
          unfold Assembly.frame
          rw [ht]
        rw [hframe]
        exact handleHeaders_synced hW f h h0 ho hg ⟨f, hl, ht, rfl⟩
      · next ht =>
        have hframe : a.frame f = a.extend f (a.part.getD [] ++ f.payload) := by
          unfold Assembly.frame
          rw [ht]
        rw [hframe]
        exact handleContinuation_synced hW f h hr
      · next ht =>
        exact hsame (handleSettings_path hfire @Behaves.kept f c).data (by simp [ht]) (by simp [ht])
      · next ht => exact hsame (handlePing_path f c).data (by simp [ht]) (by simp [ht])
      · next ht =>
        exact hsame (handleWindowUpdate_path hfire @Behaves.kept f c).data (by simp [ht]) (by simp [ht])
      · next ht => exact hsame (handleRstStream_path hfire f c).data (by simp [ht]) (by simp [ht])
      · next ht => exact hsame (handlePriority_path hfire f c).data (by simp [ht]) (by simp [ht])
      · next ht => exact hsame (handleGoaway_path f c).data (by simp [ht]) (by simp [ht])
      · exact .inl rfl

theorem step_blockView {i : Input} (hi : i.Permitted ok c) :
    (step (W.hooks n) c i).closing = true ∨ (step (W.hooks n) c i).blockView = c.blockView ∨
      ∃ f rest, Handles (W.hooks n) f rest c (step (W.hooks n) c i) := by
  cases i with
  | bytes b => exact .inr (.inl rfl)
  | call k =>
    exact .inr (.inl (Path.kept_call @Behaves.kept
      (Call.run_path (World.fire_posts hW n) @Behaves.kept hi)).blockView)
  | feed =>
    unfold step
    cases hs : feedStep (W.hooks n) c with
    | none => exact .inr (.inl rfl)
    | some c' =>
      change c'.closing = true ∨ c'.blockView = c.blockView ∨
        ∃ f rest, Handles (W.hooks n) f rest c c'
      unfold feedStep at hs
      split_ifs at hs with h1 h2 h3 h4 h5
      · obtain rfl := Option.some.inj hs
        refine .inr (.inl ?_)
        unfold Conn.finishPreface
        rcases sendOurSettings_cases { c with
          rbuf := c.rbuf.drop connectionPreface.length
          prefaceDone := true } with e | e <;> rw [e] <;> rfl
      · obtain rfl := Option.some.inj hs
        exact .inl rfl
      · obtain rfl := Option.some.inj hs
        exact .inl rfl
      · split at hs
        · cases hs
        · next f rest hn =>
          obtain rfl := Option.some.inj hs
          have hc : c.closing = false := by simpa using h4
          unfold feedFrame
          split_ifs with h6
          · exact .inl rfl
          · exact .inr (.inr ⟨f, rest, hn, hc, rfl⟩)

end Frames

/-! ### Whole runs -/

theorem Reachable.synced {W : World} {ok : Call → Conn → Prop} (hW : W.Obeys ok) {cfg : Config}
    {n : ℕ} {c : Conn} (h : Reachable (W.hooks n) ok cfg c) :
    c.closing = true ∨
      Synced (newH2Conn cfg).decoder c.blockView (assembly (received c.journal)) := by
  induction h with
  | start => exact .inr ⟨rfl, fun _ => rfl, fun h => absurd rfl h⟩
  | @step c i hc hi ih =>
    have hr := hc.ranged hW
    have hsame : Entries c (Http2.step (W.hooks n) c i) →
        (Http2.step (W.hooks n) c i).blockView = c.blockView →
        (Http2.step (W.hooks n) c i).closing = true ∨ Synced (newH2Conn cfg).decoder
          (Http2.step (W.hooks n) c i).blockView
          (assembly (received (Http2.step (W.hooks n) c i).journal)) := by
      intro he hv
      cases hcl : (Http2.step (W.hooks n) c i).closing with
      | true => exact .inl rfl
      | false =>
        rcases ih with hclosing | hsync
        · rw [he.open_of_open hcl] at hclosing
          cases hclosing
        · rw [hv, he.follows.received_eq]
          exact .inr hsync
    have hframe : ∀ f rest, Handles (W.hooks n) f rest c (Http2.step (W.hooks n) c i) →
        (Http2.step (W.hooks n) c i).closing = true ∨ Synced (newH2Conn cfg).decoder
          (Http2.step (W.hooks n) c i).blockView
          (assembly (received (Http2.step (W.hooks n) c i).journal)) := by
      intro f rest hh
      have hsync := ih.resolve_left (by rw [hh.going]; exact Bool.false_ne_true)
      have hrec := (hh.entries hW (hc.reading hW) hr).follows.received_eq
      have harr : received (c.arrived f rest).journal = received c.journal ++ [f] :=
        received_append c.journal [.received f]
      rw [hrec, harr, assembly_concat, hh.eq]
      exact handleFrame_synced hW f hsync ((hc.reading hW).congr rfl rfl)
        (hc.opened hW) (hr.arrived f rest) (lastFrame_arrived c f rest)
    rcases step_blockView hW (n := n) hi with hcl | hv | ⟨f, rest, hh⟩
    · exact .inl hcl
    · rcases step_cases hW n hi hr with he | ⟨f, rest, hh⟩
      · exact hsame he hv
      · exact hframe f rest hh
    · exact hframe f rest hh

/-- **The decoder follows the peer.**  While the connection is not closing, decoding the complete
field blocks of all the frames received, each whole and in the order they were completed, succeeds
and gives the connection's decoder: its dynamic table, its size and its limit. -/
theorem decoder_follows_the_peer {W : World} {ok : Call → Conn → Prop} (hW : W.Obeys ok)
    {cfg : Config} {n : ℕ} {c : Conn} (h : Reachable (W.hooks n) ok cfg c)
    (hopen : c.closing = false) :
    decodeBlocks (initHpackDecoder 4096 cfg.maxHeaderList) (fieldBlocks (received c.journal)) =
      some c.decoder := by
  rcases h.synced hW with hcl | hsync
  · rw [hopen] at hcl
    cases hcl
  · exact hsync.decoded

/-- A trailer section that adds `x: y` to the table. -/
def trailerBlock : Bytes := [0x40, 0x01, 0x78, 0x01, 0x79]

/-- An upload that is answered, and its stream deleted, between the HEADERS and the CONTINUATION of
its trailer section. -/
def answeredInBlock : List Input :=
  feedInputs [.headers 1 postBlock false true, .headers 1 (trailerBlock.take 3) true false] ++
    [.call (.respond 1 { code := 200 } []),
      .bytes (Frame.continuation 1 (trailerBlock.drop 3) true).bytes, .feed]

theorem decoder_follows_the_peer_answeredInBlock : let c := runOn true answeredInBlock
    (c.closing = false ∧ (c.stream? 1).isSome = false ∧ c.decoder.entries.length = 2 ∧
      fieldBlocks (received c.journal) = [postBlock, trailerBlock]) ∧
      decodeBlocks (initHpackDecoder 4096 smallConfig.maxHeaderList)
        (fieldBlocks (received c.journal)) = some c.decoder :=
  ⟨by decide +kernel, decoder_follows_the_peer (idleWorld_obeys true anyCall)
    (runOn_reachable true answeredInBlock (fun _ _ _ => trivial)) (by decide +kernel)⟩

end Vortex.Http2

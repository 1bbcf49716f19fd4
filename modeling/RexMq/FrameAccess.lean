import Mathlib.Tactic.Common
import RexMq.FrameParser
import RexMq.HandlerEffects

/-!
# Accesses inside a frame

The parser hands over as many bytes as the length word says, whatever that
number is. A frame that holds its header, its title and, for an
acknowledgement, its message id never makes a handler fault; the frames a
peer gets through are of this kind exactly when every length word the parser
reads is honest about them.
-/

set_option autoImplicit false

namespace RexMq.FrameAccess
open RexMq.ByteWords RexMq.FiniteRun RexMq.SelfDelimiting RexMq.FrameData RexMq.FrameParser
open RexMq.ClientRegistry RexMq.PersistentStore RexMq.ServerState RexMq.Handlers
open RexMq.HandlerEffects

structure Fits (f : RexData) : Prop where
  length : 37 ≤ f.content.length
  titled : ∃ b, f.content[36]? = some b ∧ 37+b.toNat ≤ f.content.length
  acked : f.command = .ok .ack → 45 ≤ f.content.length

section Accesses
variable (f : RexData)

theorem head_ok (h : 36 ≤ f.content.length) : ∃ x, f.head = .ok x := by
  rw [RexData.head, if_neg (by simp only [rexHeadLen]; omega)]
  exact ⟨_,rfl⟩

theorem command_ok (h : 36 ≤ f.content.length) : ∃ x, f.command = .ok x := by
  obtain ⟨x, hx⟩ := head_ok f h
  exact ⟨_,by rw [RexData.command, hx]; rfl⟩

theorem source_ok (h : 36 ≤ f.content.length) : ∃ x, f.source = .ok x := by
  obtain ⟨x, hx⟩ := head_ok f h
  exact ⟨_,by rw [RexData.source, hx]; rfl⟩

theorem message_id_ok (h : 36 ≤ f.content.length) : ∃ x, f.messageId = .ok x := by
  obtain ⟨x, hx⟩ := head_ok f h
  exact ⟨_,by rw [RexData.messageId, hx]; rfl⟩

theorem head_mut_ok (w off : ℕ) (x : BitVec w) (h : 36 ≤ f.content.length)
    (hw : off+w/8 ≤ 36) : ∃ g, f.headMut w off x = .ok g ∧ 36 ≤ g.content.length := by
  rw [RexData.headMut, if_neg (by simp only [rexHeadLen]; omega)]
  refine ⟨_,rfl,?_⟩
  rw [write_word_length w off x f.content (by omega)]
  exact h

theorem title_ok (h : ∃ b, f.content[36]? = some b ∧ 37+b.toNat ≤ f.content.length) :
    ∃ x, f.title = .ok x := by
  obtain ⟨b, hb, hle⟩ := h
  refine ⟨slice titleOffset b.toNat f.content,?_⟩
  rw [RexData.title, title_len_ok f b hb]
  change (if f.content.length < titleOffset+b.toNat then _ else _) = _
  rw [if_neg (by simp only [titleOffset, rexHeadLen, titleLenSize]; omega)]
  rfl

theorem titled_of_title (title : Bytes) (h : f.title = .ok title) :
    ∃ b, f.content[36]? = some b ∧ 37+b.toNat ≤ f.content.length := by
  obtain ⟨len, hl, h⟩ := bind_ok h
  cases hb : f.content[36]? with
  | none => simp [RexData.titleLen, titleLenOffset, rexHeadLen, hb] at hl
  | some b =>
    rw [title_len_ok f b hb] at hl
    cases hl
    refine ⟨b,rfl,?_⟩
    by_contra hlt
    change (if f.content.length < titleOffset+b.toNat then _ else _) = _ at h
    rw [if_pos (by simp only [titleOffset, rexHeadLen, titleLenSize]; omega)] at h
    cases h

theorem data_ok (h : ∃ b, f.content[36]? = some b ∧ 37+b.toNat ≤ f.content.length) :
    ∃ x, f.data = .ok x := by
  obtain ⟨b, hb, hle⟩ := h
  refine ⟨f.content.drop (37+b.toNat),?_⟩
  rw [RexData.data, data_offset_ok f b hb]
  change (if f.content.length < 37+b.toNat then _ else _) = _
  rw [if_neg (by omega)]
  rfl

end Accesses

theorem fits_of_title (f : RexData) (title : Bytes) (h : f.title = .ok title)
    (ha : f.command ≠ .ok .ack) : Fits f := by
  obtain ⟨b, hb, hle⟩ := titled_of_title f title h
  exact ⟨by omega,⟨b,hb,hle⟩,fun hc => absurd hc ha⟩

section Handlers
variable (env : Env) (source : ClientRef) (f : RexData) (s : Server)

theorem no_target_ok (command : RexCommand) (h : 36 ≤ f.content.length) :
    ∃ t, sendNoTarget env source f command s = .ok t := by
  obtain ⟨g, hg, hlen⟩ := head_mut_ok f 32 4 command.asU32 h (by omega)
  obtain ⟨g', hg', -⟩ := head_mut_ok g 32 8 RetCode.noTarget.asU32 hlen (by omega)
  exact ⟨_,(bind_of_ok hg).trans (bind_of_ok hg')⟩

theorem setup_ack_ok (k : ClientId) (title : Title) (isGroup : Bool)
    (h : 36 ≤ f.content.length) :
    ∃ g t, s.setupMessageAck env f k title isGroup = .ok (g,t) ∧ 36 ≤ g.content.length := by
  unfold Server.setupMessageAck
  cases s.config.ackEnabled with
  | false => exact ⟨f,s,rfl,h⟩
  | true =>
    obtain ⟨m, hm⟩ := message_id_ok f h
    obtain ⟨g, hg, hlen⟩ := head_mut_ok f 64 12 (if m ≠ 0 then m else env.messageId) h (by omega)
    exact ⟨g,_,(bind_of_ok hm).trans (bind_of_ok hg),hlen⟩

theorem foldlM_ok {α σ : Type} (step : σ → α → Except Fault σ)
    (hstep : ∀ s a, ∃ t, step s a = .ok t) (as : List α) (s : σ) :
    ∃ t, as.foldlM step s = .ok t := by
  induction as generalizing s with
  | nil => exact ⟨s,rfl⟩
  | cons a as ih =>
    obtain ⟨t, ht⟩ := hstep s a
    obtain ⟨u, hu⟩ := ih t
    exact ⟨u,by rw [List.foldlM_cons, bind_of_ok ht, hu]⟩

theorem new_length (command : RexCommand) (title data : Bytes) :
    36 ≤ (RexData.new command title data).content.length := by
  simp only [RexData.new, RexData.encodeHead, List.length_append, List.length_cons, to_le_length]
  omega

theorem drain_ok (k : ClientId) : ∃ t, drainOffline env source k s = .ok t := by
  unfold drainOffline
  dsimp only
  split_ifs
  · exact ⟨s,rfl⟩
  · obtain ⟨t, ht⟩ := foldlM_ok (sendQueued env source k) (fun s m => by
      obtain ⟨g, hg, hlen⟩ := head_mut_ok _ 128 20 k (new_length .title m.title m.payload)
        (by omega)
      obtain ⟨g', hg', -⟩ := head_mut_ok g 64 12 m.id hlen (by omega)
      exact ⟨_,(bind_of_ok hg).trans (bind_of_ok hg')⟩) (s.getOfflineMessages env k) s
    exact ⟨_,bind_of_ok ht⟩

theorem login_found_ok (k : ClientId) (title : Bytes) (found : Option ClientRef)
    (hlen : 36 ≤ f.content.length) :
    ∃ t, loginFound env source k title f s found = .ok t := by
  obtain ⟨g, hg, -⟩ := head_mut_ok f 32 4 RexCommand.loginReturn.asU32 hlen (by omega)
  cases found with
  | some client => exact ⟨_,bind_of_ok hg⟩
  | none =>
    obtain ⟨t, ht⟩ := drain_ok env source (enroll env source k title s) k
    exact ⟨_,(bind_of_ok ht).trans (bind_of_ok hg)⟩

theorem login_ok (h : Fits f) : ∃ t, loginHandler env source f s = .ok t := by
  have hlen : 36 ≤ f.content.length := by have := h.length; omega
  obtain ⟨k, hk⟩ := source_ok f hlen
  obtain ⟨title, ht⟩ := title_ok f h.titled
  rw [loginHandler, bind_of_ok hk, bind_of_ok ht]
  exact login_found_ok env source f s k title _ hlen

theorem check_ok (h : Fits f) : ∃ t, checkHandler env source f s = .ok t := by
  have hlen : 36 ≤ f.content.length := by have := h.length; omega
  obtain ⟨k, hk⟩ := source_ok f hlen
  obtain ⟨g, hg, -⟩ := head_mut_ok f 32 4 RexCommand.checkReturn.asU32 hlen (by omega)
  exact ⟨_,(bind_of_ok hk).trans (bind_of_ok hg)⟩

theorem mutator_ok (h : Fits f) : ∃ t, sessionMutator env source f s = .ok t := by
  have hlen : 36 ≤ f.content.length := by have := h.length; omega
  obtain ⟨k, hk⟩ := source_ok f hlen
  obtain ⟨title, ht⟩ := title_ok f h.titled
  obtain ⟨command, hc⟩ := command_ok f hlen
  rw [sessionMutator, bind_of_ok hk, bind_of_ok ht, bind_of_ok hc]
  cases Mutation.fromCommand command with
  | none => exact ⟨s,rfl⟩
  | some m =>
    cases s.live k with
    | some client =>
      obtain ⟨g, hg, -⟩ := head_mut_ok f 32 4 m.returnCommand.asU32 hlen (by omega)
      exact ⟨_,bind_of_ok hg⟩
    | none => exact no_target_ok env source f s m.returnCommand hlen

theorem title_handler_ok (h : Fits f) : ∃ t, titleHandler env source f s = .ok t := by
  have hlen : 36 ≤ f.content.length := by have := h.length; omega
  obtain ⟨k, hk⟩ := source_ok f hlen
  obtain ⟨title, ht⟩ := title_ok f h.titled
  obtain ⟨data, hd⟩ := data_ok f h.titled
  rw [titleHandler, bind_of_ok ht, bind_of_ok hd, bind_of_ok hk]
  cases s.route env title (some k) with
  | here target =>
    obtain ⟨g, t, hack, hg⟩ := setup_ack_ok env f s (s.clients source).id title false hlen
    have hdeliver : deliverMessage env source f target s =
        .ok ((t.sendBuf env target g.content).1,g,(t.sendBuf env target g.content).2) :=
      (bind_of_ok ht).trans (bind_of_ok hack)
    dsimp only
    rw [bind_of_ok hdeliver]
    cases (t.sendBuf env target g.content).1 with
    | true => exact ⟨_,rfl⟩
    | false => exact no_target_ok env source g _ _ hg
  | remote node =>
    dsimp only
    cases env.forward node ⟨k,0,title,f.content,.unicast⟩ with
    | delivered => exact ⟨_,rfl⟩
    | noPeerForTitle => exact no_target_ok env source f _ _ hlen
    | peerUnreachable reason => exact no_target_ok env source f _ _ hlen
  | nowhere => exact no_target_ok env source f s _ hlen

theorem group_ok (h : Fits f) : ∃ t, groupHandler env source f s = .ok t := by
  have hlen : 36 ≤ f.content.length := by have := h.length; omega
  obtain ⟨k, hk⟩ := source_ok f hlen
  obtain ⟨title, ht⟩ := title_ok f h.titled
  rw [groupHandler, bind_of_ok ht, bind_of_ok hk]
  dsimp only
  split_ifs with he
  · exact no_target_ok env source f s _ hlen
  · obtain ⟨g, t, hack, hg⟩ := setup_ack_ok env f s k title true hlen
    rw [bind_of_ok hack]
    dsimp only
    rw [List.isEmpty_iff] at he
    have hpos := List.length_pos_iff.mpr he
    rw [List.getElem?_eq_getElem (Nat.mod_lt _ hpos)]
    dsimp only
    split_ifs
    · exact no_target_ok env source g _ _ hg
    · exact ⟨_,rfl⟩

theorem cast_ok (h : Fits f) : ∃ t, castHandler env source f s = .ok t := by
  have hlen : 36 ≤ f.content.length := by have := h.length; omega
  obtain ⟨k, hk⟩ := source_ok f hlen
  obtain ⟨title, ht⟩ := title_ok f h.titled
  rw [castHandler, bind_of_ok ht, bind_of_ok hk]
  dsimp only
  split_ifs
  · exact no_target_ok env source f s _ hlen
  · obtain ⟨g, t, hack, hg⟩ := setup_ack_ok env f s k title false hlen
    rw [bind_of_ok hack]
    dsimp only
    split_ifs
    · exact no_target_ok env source g _ _ hg
    · exact ⟨_,rfl⟩

theorem ack_ok (h : 45 ≤ f.content.length) : ∃ t, ackHandler env f s = .ok t := by
  have hack : AckData.fromRexData f = .ok ⟨readWord 64 37 f.content⟩ := by
    rw [AckData.fromRexData, if_neg (by simp only [rexHeadLen, titleLenSize]; omega)]
    rfl
  rw [ackHandler]
  split_ifs
  · exact ⟨s,rfl⟩
  · rw [bind_of_ok hack]
    rcases s.takePendingAck (AckData.mk (readWord 64 37 f.content)).messageId
      with ⟨_ | pending, t⟩
    · exact ⟨t,rfl⟩
    · dsimp only
      cases t.live pending.sourceClientId with
      | none => exact ⟨t,rfl⟩
      | some sender => exact ⟨_,rfl⟩

theorem handle_ok (h : Fits f) : ∃ t, handle env source f s = .ok t := by
  have hlen : 36 ≤ f.content.length := by have := h.length; omega
  obtain ⟨command, hc⟩ := command_ok f hlen
  rw [handle, bind_of_ok hc]
  cases command with
  | title => exact title_handler_ok env source f s h
  | group => exact group_ok env source f s h
  | cast => exact cast_ok env source f s h
  | login => exact login_ok env source f s h
  | check => exact check_ok env source f s h
  | regTitle => exact mutator_ok env source f s h
  | delTitle => exact mutator_ok env source f s h
  | ack => exact ack_ok env f s (h.acked hc)
  | titleReturn | groupReturn | castReturn | loginReturn | checkReturn | regTitleReturn
  | delTitleReturn | ackReturn => exact ⟨s,rfl⟩

end Handlers

/-- The buffers on which `try_deserialize` is called while the driver is fed
a list of chunks, with the state at each call. -/
inductive Polls {σ : Type*} (handle : σ → RexData → σ) (updateLastRecv : σ → σ)
    (maxBufferSize : ℕ) : Inbox σ UInt8 → List Bytes → σ × Bytes → Prop
  | here (i : Inbox σ UInt8) (chunk : Bytes) (chunks : List Bytes) (p : σ × Bytes) :
      Entered (parseBody (fun s f => updateLastRecv (handle s f))) (i.state,i.buffer++chunk) p →
      Polls handle updateLastRecv maxBufferSize i (chunk::chunks) p
  | later (i j : Inbox σ UInt8) (chunk : Bytes) (chunks : List Bytes) (p : σ × Bytes)
      (fuel : ℕ) : drive handle updateLastRecv maxBufferSize fuel i chunk = some j →
      Polls handle updateLastRecv maxBufferSize j chunks p →
      Polls handle updateLastRecv maxBufferSize i (chunk::chunks) p

/-- The length word of a buffer covers the header, the title that the title
length byte announces and the message id of an acknowledgement, as soon as
it lets a frame through. -/
def HonestLength (buf : Bytes) : Prop :=
  4 ≤ buf.length → declaredLen buf ≤ buf.length →
    37 ≤ declaredLen buf ∧ (∀ b, buf[36]? = some b → 37+b.toNat ≤ declaredLen buf) ∧
      (ofLe (slice 4 4 buf) = 9915 → 45 ≤ declaredLen buf)

theorem command_ack_iff (f : RexData) (h : 36 ≤ f.content.length) :
    f.command = .ok .ack ↔ ofLe (slice 4 4 f.content) = 9915 := by
  have hlt := of_le_lt (slice 4 4 f.content)
  rw [slice_length 4 4 f.content (by omega)] at hlt
  have hw : (readWord 32 4 f.content).toNat = ofLe (slice 4 4 f.content) := by
    rw [readWord, BitVec.toNat_ofNat, Nat.mod_eq_of_lt (by simpa using hlt)]
  rw [← hw, ← from_u32_ack, RexData.command, RexData.head,
    if_neg (by simp only [rexHeadLen]; omega)]
  exact ⟨fun hc => Except.ok.inj hc,fun hc => congrArg Except.ok hc⟩

theorem yielded_fits_iff (buf : Bytes) :
    (∀ f rest, RexData.tryDeserialize buf = (.ok (some f),rest) → Fits f) ↔
      HonestLength buf := by
  have hget : ∀ n, 37 ≤ n → (buf.take n)[36]? = buf[36]? :=
    fun n hn => List.getElem?_take_of_lt (by omega)
  have hslice : ∀ n, 8 ≤ n → n ≤ buf.length → slice 4 4 (buf.take n) = slice 4 4 buf := by
    intro n hn hle
    conv_rhs => rw [← List.take_append_drop n buf]
    rw [slice_append 4 4 _ _ (by rw [List.length_take]; omega)]
  constructor
  · intro h h4 hle
    have hf := h ⟨buf.take (declaredLen buf)⟩ _
      ((try_deserialize_some buf _ _).mpr ⟨h4,hle,rfl,rfl⟩)
    have hlen : (buf.take (declaredLen buf)).length = declaredLen buf := by
      rw [List.length_take]
      omega
    have h37 : 37 ≤ declaredLen buf := hlen ▸ hf.length
    refine ⟨h37,fun b hb => ?_,fun hack => ?_⟩
    · obtain ⟨b', hb', hle'⟩ := hf.titled
      rw [hget _ h37, hb] at hb'
      cases hb'
      exact hlen ▸ hle'
    · rw [← hlen]
      refine hf.acked ((command_ack_iff _ (by simp only [hlen]; omega)).mpr ?_)
      rw [hslice _ (by omega) hle]
      exact hack
  · intro h f rest hd
    obtain ⟨h4, hle, rfl, -⟩ := (try_deserialize_some buf rest f).mp hd
    obtain ⟨h37, htitle, hack⟩ := h h4 hle
    have hlen : (buf.take (declaredLen buf)).length = declaredLen buf := by
      rw [List.length_take]
      omega
    have hb : buf[36]? = some (buf.get ⟨36,by omega⟩) := List.getElem?_eq_getElem (by omega)
    refine ⟨by simp only [hlen]; exact h37,⟨_,(hget _ h37).trans hb,?_⟩,fun hc => ?_⟩
    · simp only [hlen]
      exact htitle _ hb
    · simp only [hlen]
      rw [command_ack_iff _ (by simp only [hlen]; omega)] at hc
      exact hack (by rwa [hslice _ (by omega) hle] at hc)

/-- Every frame handed over is long enough for every handler in every server
state exactly when the length words the parser reads are honest. -/
theorem handled_frames_fit_iff {σ : Type*} (serve : σ → RexData → σ) (updateLastRecv : σ → σ)
    (maxBufferSize : ℕ) (i : Inbox σ UInt8) (chunks : List Bytes) :
    (∀ t buf f rest, Polls serve updateLastRecv maxBufferSize i chunks (t,buf) →
      RexData.tryDeserialize buf = (.ok (some f),rest) →
        Fits f ∧ ∀ env source s, ∃ s', handle env source f s = .ok s') ↔
      ∀ t buf, Polls serve updateLastRecv maxBufferSize i chunks (t,buf) → HonestLength buf := by
  constructor
  · intro h t buf hp
    exact (yielded_fits_iff buf).mp fun f rest hd => (h t buf f rest hp hd).1
  · intro h t buf f rest hp hd
    have hf := (yielded_fits_iff buf).mpr (h t buf hp) f rest hd
    exact ⟨hf,fun env source s => handle_ok env source f s hf⟩

/-- A frame of 37 bytes that announces a title of one byte. -/
def titleOutside : Bytes :=
  RexData.encodeHead
    { totalLen := 37, command := RexCommand.title.asU32, retcode := 0, messageId := 0,
      source := 0 }++[1]

/-- It is handed over whole, and reading its title faults in every state. -/
theorem title_outside_faults :
    Polls (fun n _ => n+1) id 1024 ⟨0,[],0⟩ [titleOutside] (0,titleOutside) ∧
      RexData.tryDeserialize titleOutside = (.ok (some ⟨titleOutside⟩),[]) ∧
      ¬ Fits ⟨titleOutside⟩ ∧
      ∀ env source s, handle env source ⟨titleOutside⟩ s = .error (.outOfBounds 37 1) := by
  refine ⟨.here _ _ _ _ (entered_self _ _),by decide +kernel,fun hf => ?_,fun env source s => ?_⟩
  · obtain ⟨b, hb, hle⟩ := hf.titled
    have h1 : titleOutside[36]? = some 1 := by decide +kernel
    rw [h1] at hb
    cases hb
    revert hle
    decide +kernel
  · have hc : RexData.command ⟨titleOutside⟩ = .ok .title := by decide +kernel
    have ht : RexData.title ⟨titleOutside⟩ = .error (.outOfBounds 37 1) := by decide +kernel
    rw [handle, bind_of_ok hc]
    dsimp only
    rw [titleHandler, ht]
    rfl

end RexMq.FrameAccess

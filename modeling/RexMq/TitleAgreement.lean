import Mathlib.Tactic.Common
import RexMq.ClientProcess
import RexMq.FrameStream
import RexMq.LoginTitles
import RexMq.PublishTrace

/-!
# What client and server think of a title

A client asks for a title or gives one up, the server answers with the same
frame under the return command, and the client changes its own list when the
answer comes. The server changes its index only for an id it knows, and
answers NoTarget otherwise; the client does not look at the return code. Its
title string follows the list only where the store of the string is kept. So
the two agree after an answer exactly when the server did what it was asked,
or what it was asked was so already, and the same holds of the string.
-/

set_option autoImplicit false

namespace RexMq.TitleAgreement
open RexMq.ByteWords RexMq.FiniteRun RexMq.RelationIndex RexMq.FrameData RexMq.FrameParser
open RexMq.FrameStream RexMq.FrameAccess RexMq.ClientRegistry RexMq.PersistentStore
open RexMq.ServerState RexMq.Handlers RexMq.HandlerEffects RexMq.PublishTrace RexMq.ServerRun
open RexMq.LoginTitles RexMq.ClientProcess

section Frames
variable (f g : RexData)

theorem title_head_mut (w off : ℕ) (x : BitVec w) (hw : off+w/8 ≤ 36)
    (h : f.headMut w off x = .ok g) : g.title = f.title := by
  obtain ⟨hlen, hg⟩ := head_mut_eq f g w off x h
  have h36 : 36 ≤ f.content.length := hlen
  have hl := write_word_length w off x f.content (by omega)
  have hbyte : g.content[36]? = f.content[36]? := by
    rw [hg, writeWord, getElem?_patch_after _ _ _ _ (by rw [to_le_length]; omega)
      (by rw [to_le_length]; omega)]
  have htl : g.titleLen = f.titleLen := by
    unfold RexData.titleLen
    rw [show titleLenOffset = 36 from rfl, hbyte]
  unfold RexData.title
  rw [htl]
  cases f.titleLen with
  | error e => rfl
  | ok len =>
    show (if _ then _ else _) = (if _ then _ else _)
    rw [hg, hl]
    split_ifs with hin
    · rfl
    · rw [writeWord, slice_patch_after _ _ _ _ _ (by
          rw [to_le_length]
          have : titleOffset = 37 := rfl
          omega) (by rw [to_le_length]; omega)]

theorem counted_head_mut (w off : ℕ) (x : BitVec w) (ho : 4 ≤ off) (hw : off+w/8 ≤ 36)
    (hc : Counted f.content) (h : f.headMut w off x = .ok g) : Counted g.content := by
  obtain ⟨hlen, hg⟩ := head_mut_eq f g w off x h
  have h36 : 36 ≤ f.content.length := hlen
  have hl := write_word_length w off x f.content (by omega)
  unfold Counted declaredLen
  rw [hg, hl, writeWord, slice_patch_before _ _ _ _ _ (by omega) (by omega)]
  exact hc

theorem counted_deserialize (hc : Counted f.content) :
    RexData.tryDeserialize f.content = (.ok (some f),[]) := by
  apply (try_deserialize_some f.content [] f).mpr
  rw [hc.2, List.take_length, List.drop_length]
  exact ⟨hc.1,le_refl _,rfl,rfl⟩

end Frames

def requestCommand : Mutation → RexCommand
  | .register => .regTitle
  | .unregister => .delTitle

/-- A request of the client `k` as the server's parser yields it. -/
structure TitleRequest (k : ClientId) where
  mutation : Mutation
  title : Title
  frame : RexData
  single : SingleTitle title
  command : frame.command = .ok (requestCommand mutation)
  source : frame.source = .ok k
  titled : frame.title = .ok title
  counted : Counted frame.content

/-- The answer to a request: the frame under the return command. -/
structure Answers {k : ClientId} (r : TitleRequest k) (g : RexData) : Prop where
  command : g.command = .ok r.mutation.returnCommand
  title : g.title = .ok r.title
  counted : Counted g.content

def served {k : ClientId} (r : TitleRequest k) (s : Server) : Server :=
  match s.live k with
  | some _ => mutate r.mutation k r.title s
  | none => s

section Requests
variable {k : ClientId} (r : TitleRequest k)

theorem answers_set_command (g : RexData)
    (h : r.frame.setCommand r.mutation.returnCommand = .ok g) : Answers r g where
  command := command_set_command r.frame g _ h
  title := (title_head_mut r.frame g 32 4 _ (by decide) h).trans r.titled
  counted := counted_head_mut r.frame g 32 4 _ (by decide) (by decide) r.counted h

theorem answers_set_retcode (f g : RexData) (code : RetCode) (ha : Answers r f)
    (h : f.setRetcode code = .ok g) : Answers r g where
  command := (command_head_mut f g 32 8 _ (by decide) (by decide) h).trans ha.command
  title := (title_head_mut f g 32 8 _ (by decide) h).trans ha.title
  counted := counted_head_mut f g 32 8 _ (by decide) (by decide) ha.counted h

variable (env : Env) (c : ClientRef) (s : Server)

theorem request_mutator (t : Server) (h : handle env c r.frame s = .ok t) :
    sessionMutator env c r.frame s = .ok t := by
  obtain ⟨command, hc, h⟩ := bind_ok h
  rw [r.command] at hc
  cases hc
  cases hm : r.mutation with
  | register =>
    rw [hm] at h
    exact h
  | unregister =>
    rw [hm] at h
    exact h

theorem handle_request (t : Server) (h : handle env c r.frame s = .ok t) :
    ∃ g e, Answers r g ∧ t.sent = s.sent++[e] ∧ e.buf = g.content ∧
      e.ok = env.sendOk s.sent.length ∧ Quiet (served r s) t := by
  have hm := request_mutator r env c s t h
  obtain ⟨k', hk, hm⟩ := bind_ok hm
  obtain ⟨title, ht, hm⟩ := bind_ok hm
  obtain ⟨command, hc, hm⟩ := bind_ok hm
  rw [r.source] at hk
  rw [r.titled] at ht
  rw [r.command] at hc
  cases hk
  cases ht
  cases hc
  have hmut : Mutation.fromCommand (requestCommand r.mutation) = some r.mutation := by
    cases r.mutation <;> rfl
  simp only [hmut] at hm
  unfold served
  cases hl : s.live k with
  | some client =>
    simp only [hl] at hm
    obtain ⟨g, hg, hm⟩ := bind_ok hm
    cases hm
    refine ⟨g,_,answers_set_command r g hg,(posts_send_buf env _ client g.content).sent,rfl,rfl,?_⟩
    refine quiet_trans _ _ _ ?_ (quiet_send_buf env client g.content _)
    exact quiet_plain _ _ ⟨rfl,rfl,rfl,rfl,rfl,fun _ => rfl,rfl⟩
  | none =>
    simp only [hl] at hm
    obtain ⟨f, hf, hm⟩ := bind_ok hm
    obtain ⟨g, hg, hm⟩ := bind_ok hm
    cases hm
    exact ⟨g,_,answers_set_retcode r f g .noTarget (answers_set_command r f hf) hg,
      (posts_send_buf env s c g.content).sent,rfl,rfl,quiet_send_buf env c g.content s⟩

theorem receive_request :
    ∃ g e, Answers r g ∧ (receiveFrame env c r.frame s).sent = s.sent++[e] ∧
      e.buf = g.content ∧ e.ok = env.sendOk s.sent.length ∧
      Quiet (served r s) (receiveFrame env c r.frame s) := by
  have hfits : Fits r.frame := by
    apply fits_of_title r.frame r.title r.titled
    rw [r.command]
    cases r.mutation <;> exact nofun
  obtain ⟨t, ht⟩ := handle_ok env c r.frame s hfits
  obtain ⟨g, e, ha, hsent, hbuf, hok, hq⟩ := handle_request r env c s t ht
  unfold receiveFrame
  rw [ht]
  exact ⟨g,e,ha,hsent,hbuf,hok,quiet_trans _ _ _ hq (quiet_touch t c env.now)⟩

end Requests

def Applied (s : Server) (k : ClientId) (title : Title) : Mutation → Prop
  | .register => Routable s k title ∨ ∃ c, s.live k = some c ∧ (s.clients c).id = k
  | .unregister => ¬ Routable s k title ∨ s.live k ≠ none

section Tables
variable {k : ClientId} (r : TitleRequest k) (s : Server)

theorem routable_register (hm : r.mutation = .register) :
    Routable (served r s) k r.title ↔ Applied s k r.title .register := by
  unfold served Applied
  cases hl : s.live k with
  | none => simp
  | some client =>
    dsimp only
    rw [mutate_some r.mutation k r.title s client hl, hm, routable_iff, routable_iff]
    have hid : ∀ d, (modify s.clients client (onClient r.title .register) d).id =
        (s.clients d).id := fun d => modify_field _ _ _ _ RexClientInner.id rfl
    have hin : ∀ d, d ∈ ClientRegistryImpl.subscribers r.title
        { s.registry with
          title2clients := onIndex k r.title (fun d => (s.clients d).id) client
            s.registry.title2clients .register } ↔
        d ∈ s.registry.subscribers r.title ∨ d = client ∧ r.title = r.title ∧
          ∀ e ∈ s.registry.subscribers r.title, (s.clients e).id ≠ k :=
      fun d => mem_listed_enlist ..
    constructor
    · rintro ⟨d, hd, hk⟩
      dsimp only at hd hk
      rw [hid] at hk
      rcases (hin d).mp hd with hd | ⟨rfl, -, -⟩
      · exact .inl ⟨d,hd,hk⟩
      · exact .inr ⟨d,rfl,hk⟩
    · intro h
      by_cases hold : ∃ d ∈ s.registry.subscribers r.title, (s.clients d).id = k
      · obtain ⟨d, hd, hk⟩ := hold
        exact ⟨d,(hin d).mpr (.inl hd),(hid d).trans hk⟩
      · obtain ⟨d, hd, hk⟩ := h.resolve_left hold
        cases hd
        exact ⟨client,(hin client).mpr (.inr ⟨rfl,rfl,fun e he hk' => hold ⟨e,he,hk'⟩⟩),
          (hid client).trans hk⟩

theorem routable_unregister (hm : r.mutation = .unregister) :
    ¬ Routable (served r s) k r.title ↔ Applied s k r.title .unregister := by
  unfold served Applied
  cases hl : s.live k with
  | none => simp
  | some client =>
    dsimp only
    rw [mutate_some r.mutation k r.title s client hl, hm, routable_iff]
    apply iff_of_true
    · rintro ⟨d, hd, hk⟩
      have hid : (modify s.clients client (onClient r.title .unregister) d).id =
          (s.clients d).id := modify_field _ _ _ _ RexClientInner.id rfl
      dsimp only at hd hk
      rw [hid] at hk
      exact ((mem_listed_delist (fun d => (s.clients d).id) k d s.registry.title2clients
        r.title r.title).mp hd).2 ⟨rfl,hk⟩
    · exact .inr (Option.some_ne_none client)

end Tables

theorem own_after_answer {k : ClientId} (r : TitleRequest k) (env : ClientEnv) (b : ClientBase)
    (h : b.Titled k) (g : RexData) (ha : Answers r g) :
    (r.title ∈ (b.receive env g).ownTitles ↔ r.mutation = .register) ∧
      (env.storeKept = false → (b.receive env g).title = b.title) ∧
      (env.storeKept = true → (b.receive env g).Stringed) := by
  obtain ⟨client, hc⟩ : ∃ client, b.client = some client := by
    cases hc : b.client with
    | none => simpa [hc] using h.object
    | some client => exact ⟨client,rfl⟩
  -- The answer to either request is one `retitle`.
  suffices hs : ∃ client', b.handleCommand env client g r.mutation.returnCommand =
      .ok (b.retitle env client') ∧ (∀ t ∈ client'.subscribedTitles, SingleTitle t) ∧
      (r.title ∈ client'.subscribedTitles ↔ r.mutation = .register) by
    obtain ⟨client', hb, hsingle, hown⟩ := hs
    have hreceive : b.receive env g = (b.retitle env client').touch env := by
      rw [ClientBase.receive, ClientBase.handleReceivedData, hc]
      dsimp only
      rw [bind_of_ok ha.command, bind_of_ok hb]
      rfl
    have hsame := ClientBase.same_touch env (b.retitle env client')
    rw [hreceive]
    refine ⟨?_,fun hk => ?_,fun hk => ?_⟩
    · rw [hsame.own, ClientBase.retitle_own]
      exact hown
    · rw [hsame.title, ClientBase.retitle_title, hk]
      rfl
    · exact ClientBase.stringed_of_same _ _
        (ClientBase.stringed_retitle env client' b hsingle hk) hsame
  cases hm : r.mutation with
  | register =>
    refine ⟨client.insertTitle r.title,bind_of_ok ha.title,
      ClientBase.single_insert k client b h hc r.title,iff_of_true ?_ rfl⟩
    apply (RexClientInner.mem_insert_title r.title client r.title).mpr
    rw [split_single r.title r.single]
    exact .inr (List.mem_singleton_self _)
  | unregister =>
    refine ⟨client.removeTitle r.title,bind_of_ok ha.title,
      ClientBase.single_remove k client b h hc r.title,iff_of_false ?_ nofun⟩
    intro hin
    exact ((RexClientInner.mem_remove_title r.title client r.title).mp hin).2 rfl

/-- The server and one client process. -/
structure Exchange where
  server : Server
  base : ClientBase

/-- A request with its answer, or anything else that happens to the server. -/
inductive TitleEvent (k : ClientId) where
  | request (env : Env) (clientEnv : ClientEnv) (c : ClientRef) (r : TitleRequest k)
  | elsewhere (server : Server)

/-- What the client does with a buffer that was sent to it. -/
def receiveReply (env : ClientEnv) (b : ClientBase) (e : Sent) : ClientBase :=
  match e.ok, (RexData.tryDeserialize e.buf).1 with
  | true, .ok (some g) => b.receive env g
  | _, _ => b

section Runs
variable (k : ClientId)

def exchangeStep (x : Exchange) : TitleEvent k → Exchange
  | .request env clientEnv c r =>
    let server := receiveFrame env c r.frame x.server
    ⟨server,(server.sent.drop x.server.sent.length).foldl (receiveReply clientEnv) x.base⟩
  | .elsewhere server => { x with server := server }

/-- The client's list and its next login have the title exactly when the
server lists the client under it. -/
def Agree (title : Title) (x : Exchange) : Prop :=
  (title ∈ x.base.ownTitles ↔ Routable x.server k title) ∧
    (title ∈ splitTitles x.base.title ↔ Routable x.server k title)

def Agrees (x : Exchange) (e : TitleEvent k) : Prop :=
  match e with
  | .request env _ _ r =>
    env.sendOk x.server.sent.length = true → Agree k r.title (exchangeStep k x e)
  | .elsewhere _ => True

/-- The server applies the request, and the store of the title string is kept
or the string is as asked already. -/
def Granted (x : Exchange) : TitleEvent k → Prop
  | .request env clientEnv _ r =>
    env.sendOk x.server.sent.length = true → Applied x.server k r.title r.mutation ∧
      (clientEnv.storeKept = true ∨
        (r.title ∈ splitTitles x.base.title ↔ r.mutation = .register))
  | .elsewhere _ => True

theorem titled_reply (env : ClientEnv) (b : ClientBase) (e : Sent) (h : b.Titled k) :
    (receiveReply env b e).Titled k := by
  unfold receiveReply
  split
  · exact ClientBase.titled_receive env k _ b h
  · exact h

theorem titled_step (x : Exchange) (e : TitleEvent k) (h : x.base.Titled k) :
    (exchangeStep k x e).base.Titled k := by
  cases e with
  | request env clientEnv c r =>
    unfold exchangeStep
    dsimp only
    generalize (receiveFrame env c r.frame x.server).sent.drop x.server.sent.length = es
    revert h
    generalize x.base = b
    induction es generalizing b with
    | nil => exact fun h => h
    | cons e es ih => exact fun h => ih _ (titled_reply k clientEnv b e h)
  | elsewhere server => exact h

theorem agrees_iff_granted (x : Exchange) (e : TitleEvent k) (h : x.base.Titled k) :
    Agrees k x e ↔ Granted k x e := by
  cases e with
  | elsewhere server => exact Iff.rfl
  | request env clientEnv c r =>
    apply imp_congr_right
    intro hok
    obtain ⟨g, e, ha, hsent, hbuf, heok, hq⟩ := receive_request r env c x.server
    have hbase : (exchangeStep k x (.request env clientEnv c r)).base =
        x.base.receive clientEnv g := by
      unfold exchangeStep
      dsimp only
      rw [hsent, List.drop_left, List.foldl_cons, List.foldl_nil, receiveReply, heok, hok, hbuf,
        counted_deserialize g ha.counted]
    obtain ⟨hown, hlost, hkept⟩ := own_after_answer r clientEnv x.base h g ha
    have hroute : Routable (exchangeStep k x (.request env clientEnv c r)).server k r.title ↔
        Routable (served r x.server) k r.title :=
      routable_congr _ _ hq.registry hq.id k r.title
    have happlied : (r.mutation = .register ↔ Routable (served r x.server) k r.title) ↔
        Applied x.server k r.title r.mutation := by
      cases hm : r.mutation with
      | register => rw [eq_self, true_iff, routable_register r x.server hm]
      | unregister => rw [← routable_unregister r x.server hm]; simp
    have hstring : (r.title ∈ splitTitles (x.base.receive clientEnv g).title ↔
        r.mutation = .register) ↔ (clientEnv.storeKept = true ∨
          (r.title ∈ splitTitles x.base.title ↔ r.mutation = .register)) := by
      cases hk : clientEnv.storeKept with
      | true => rw [hkept hk r.title, hown, eq_self, true_or, iff_self]
      | false => rw [hlost hk]; simp
    unfold Agree
    rw [hroute, hbase, hown, ← happlied, ← hstring]
    exact and_congr_right fun hreg => by rw [hreg]

/-- Client and server agree on the title after every answer that arrives
exactly when the server applied every request it answered and the title
string was stored, or already so, each time. -/
theorem titles_agree_iff (title : Bytes) (sender : SenderRef) (now : UInt64) (ackEnabled : Bool)
    (s : Server) (es : List (TitleEvent k)) :
    Along (exchangeStep k) (Agrees k) ⟨s,.opened k title sender now ackEnabled⟩ es ↔
      Along (exchangeStep k) (Granted k) ⟨s,.opened k title sender now ackEnabled⟩ es :=
  along_iff_along (exchangeStep k) (Agrees k) (Granted k) (fun x => x.base.Titled k)
    (agrees_iff_granted k) (fun x e h _ => titled_step k x e h) _ es
    (ClientBase.titled_opened k title sender now ackEnabled)

end Runs

/-- Client 7 asks for the title `a`. -/
def askForA : TitleRequest 7 where
  mutation := .register
  title := [97]
  frame := ⟨writeWord 128 20 7 (RexData.new .regTitle [97] []).content⟩
  single := by decide
  command := by decide +kernel
  source := by decide +kernel
  titled := by decide +kernel
  counted := by
    unfold Counted
    decide +kernel

/-- A server that does not know the client refuses, and the client believes
to have the title. -/
theorem refused_title_kept :
    let x := exchangeStep 7
      ⟨Server.build plainConfig .noop none unusedClients,.opened 7 [] 0 0 false⟩
      (.request quietEnv ⟨0,true,0,true⟩ 0 askForA)
    (x.server.sent.map (fun e => (RexData.mk e.buf).retcode)) = [.ok .noTarget] ∧
      x.base.ownTitles = [[97]] ∧ x.base.title = [97] ∧ ¬ Routable x.server 7 [97] ∧
      ¬ Agree 7 [97] x := by
  refine ⟨by decide +kernel,by decide +kernel,by decide +kernel,by decide +kernel,?_⟩
  intro h
  have hin := h.1.mp (by decide +kernel)
  revert hin
  decide +kernel

end RexMq.TitleAgreement

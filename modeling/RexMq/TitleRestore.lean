import Mathlib.Tactic.Common
import RexMq.ClientProcess
import RexMq.FrameFields
import RexMq.LoginTitles
import RexMq.PublishTrace

/-!
# The titles of a login after a reconnect

On a reconnect the client sends its title string in a login frame. The frame
has one byte for the length of the title, so of a longer string the server
reads the first bytes only, as many as the length is modulo 256, and splits
those. A server that does not know the id registers what it reads. The
client gets all its titles back exactly when the part that is read splits
into the titles it has. That needs a string that was kept up to date, which
the store of `set_title` leaves to the build, and that is not cut; for a
list without repetitions the latter means at most 255 bytes.
-/

set_option autoImplicit false

namespace RexMq.TitleRestore
open RexMq.ByteWords RexMq.FrameData RexMq.FrameParser RexMq.FrameStream RexMq.FrameFields
open RexMq.FrameAccess
open RexMq.ClientRegistry RexMq.PersistentStore RexMq.ServerState RexMq.Handlers
open RexMq.HandlerEffects RexMq.PublishTrace RexMq.ServerRun RexMq.LoginTitles
open RexMq.ClientProcess

section Cut

def cut (title : Bytes) : Bytes := title.take (title.length%256)

theorem split_separated (t bs : Bytes) (ht : SingleTitle t) :
    splitTitles (t++59::bs) = t::splitTitles bs := by
  rw [splitTitles, List.splitOn_append_cons_self_of_not_mem ht.2, List.filter_cons,
    if_pos (by simpa using ht.1)]
  rfl

theorem split_part (t : Title) (ht : SingleTitle t) (n : ℕ) (u : Title)
    (h : u ∈ splitTitles (t.take n)) : u = t.take n := by
  by_cases he : t.take n = []
  · rw [he] at h
    cases h
  · have hs : SingleTitle (t.take n) := ⟨he,fun hin => ht.2 (List.mem_of_mem_take hin)⟩
    rw [split_single _ hs] at h
    exact List.mem_singleton.mp h

theorem missing_of_cut (ts : List Title) (hs : ∀ t ∈ ts, SingleTitle t) (hn : ts.Nodup) (n : ℕ)
    (hlt : n < (joinTitles ts).length) :
    ∃ t ∈ ts, t ∉ splitTitles ((joinTitles ts).take n) := by
  induction ts generalizing n with
  | nil => cases hlt
  | cons t ts ih =>
    have ht := hs t List.mem_cons_self
    have hpart : n < t.length → t ∉ splitTitles (t.take n) := by
      intro hl hin
      have hlen := congrArg List.length (split_part t ht n t hin)
      rw [List.length_take] at hlen
      omega
    cases ts with
    | nil =>
      have hj : joinTitles [t] = t := List.intercalate_singleton
      rw [hj] at hlt ⊢
      exact ⟨t,List.mem_singleton_self t,hpart hlt⟩
    | cons t' ts =>
      have hj : joinTitles (t::t'::ts) = t++59::joinTitles (t'::ts) := by
        rw [joinTitles, List.intercalate_cons_cons, List.append_assoc]
        rfl
      obtain ⟨hfirst, hrest⟩ := List.nodup_cons.mp hn
      rw [hj] at hlt ⊢
      by_cases hl : n ≤ t.length
      · rw [List.take_append_of_le_length hl]
        by_cases hl' : n < t.length
        · exact ⟨t,List.mem_cons_self,hpart hl'⟩
        · refine ⟨t',List.mem_cons_of_mem _ List.mem_cons_self,fun hin => hfirst ?_⟩
          have he := split_part t ht n t' hin
          rw [List.take_of_length_le (by omega)] at he
          rw [← he]
          exact List.mem_cons_self
      · obtain ⟨m, rfl⟩ : ∃ m, n = t.length+(m+1) := ⟨n-t.length-1,by omega⟩
        have hm : m < (joinTitles (t'::ts)).length := by
          rw [List.length_append, List.length_cons] at hlt
          omega
        obtain ⟨u, hu, hout⟩ := ih (fun t ht => hs t (List.mem_cons_of_mem _ ht)) hrest m hm
        refine ⟨u,List.mem_cons_of_mem _ hu,?_⟩
        rw [List.take_length_add_append, List.take_succ_cons, split_separated t _ ht]
        intro hin
        rcases List.mem_cons.mp hin with rfl | hin
        · exact hfirst hu
        · exact hout hin

/-- The number of bytes the length word of a login frame declares. -/
def declared (title : Bytes) : ℕ := (37+title.length)%2^32

/-- The title a frame holds lies inside the declared bytes and splits into
the given titles. -/
structure Carried (title : Bytes) (ts : List Title) : Prop where
  inside : 37+title.length%256 ≤ declared title
  same : ∀ t, t ∈ splitTitles (cut title) ↔ t ∈ ts

theorem carried_of_short (title : Bytes) (ts : List Title)
    (hs : ∀ t, t ∈ splitTitles title ↔ t ∈ ts) (h : title.length ≤ 255) : Carried title ts := by
  have hmod : title.length%256 = title.length := Nat.mod_eq_of_lt (by omega)
  have hword : (37+title.length)%2^32 = 37+title.length := Nat.mod_eq_of_lt (by omega)
  constructor
  · rw [hmod, declared, hword]
  · intro t
    rw [cut, hmod, List.take_length]
    exact hs t

theorem carried_join_iff (ts : List Title) (hs : ∀ t ∈ ts, SingleTitle t) (hn : ts.Nodup) :
    Carried (joinTitles ts) ts ↔ (joinTitles ts).length ≤ 255 := by
  constructor
  · intro h
    by_contra hlong
    have hlt : (joinTitles ts).length%256 < (joinTitles ts).length := by omega
    obtain ⟨t, ht, hout⟩ := missing_of_cut ts hs hn _ hlt
    exact hout ((h.same t).mpr ht)
  · exact carried_of_short _ ts fun t => by rw [split_join ts hs]

end Cut

section Frames
variable (k : ClientId) (title : Bytes)

def loginHead : RexHead :=
  ⟨BitVec.ofNat 32 (37+title.length),RexCommand.login.asU32,RetCode.success.asU32,0,k⟩

theorem set_source_login :
    (RexData.new .login title []).setSource k = .ok (loginFrame k title) := by
  have hlen : rexHeadLen ≤ (RexData.new .login title []).content.length :=
    new_length .login title []
  rw [RexData.setSource, RexData.headMut, if_neg (Nat.not_lt.mpr hlen)]
  rfl

theorem login_frame_eq :
    loginFrame k title =
      ⟨RexData.encodeHead (loginHead k title)++UInt8.ofNat title.length::title⟩ := by
  have hnew : RexData.new .login title [] =
      ⟨RexData.encodeHead (loginHead 0 title)++UInt8.ofNat title.length::title⟩ := by
    simp [RexData.new, loginHead, rexHeadLen, titleLenSize]
  have hsource := head_mut_source (loginHead 0 title) (UInt8.ofNat title.length::title) k
  rw [← hnew] at hsource
  exact Except.ok.inj ((set_source_login k title).symm.trans hsource)

theorem login_frame_content :
    (loginFrame k title).content =
      RexData.encodeHead (loginHead k title)++UInt8.ofNat title.length::title :=
  congrArg RexData.content (login_frame_eq k title)

theorem login_frame_length : (loginFrame k title).content.length = 37+title.length := by
  rw [login_frame_content, List.length_append, encode_head_length, List.length_cons]
  omega

theorem login_frame_declared : declaredLen (loginFrame k title).content = declared title := by
  have hword : readWord 32 0 (loginFrame k title).content = BitVec.ofNat 32 (37+title.length) := by
    rw [login_frame_content]
    exact encode_head_total _ _
  have hlt := of_le_lt (slice 0 4 (loginFrame k title).content)
  rw [slice_length 0 4 _ (by rw [login_frame_length]; omega)] at hlt
  have hnat := congrArg BitVec.toNat hword
  rw [readWord, BitVec.toNat_ofNat, BitVec.toNat_ofNat] at hnat
  exact (Nat.mod_eq_of_lt hlt).symm.trans hnat

/-- The frame the server's parser yields for a login. -/
def parsedLogin : RexData := ⟨(loginFrame k title).content.take (declared title)⟩

theorem login_deserialized :
    RexData.tryDeserialize (loginFrame k title).content =
      (.ok (some (parsedLogin k title)),(loginFrame k title).content.drop (declared title)) := by
  apply (try_deserialize_some _ _ _).mpr
  rw [login_frame_declared]
  refine ⟨by rw [login_frame_length]; omega,?_,rfl,rfl⟩
  rw [login_frame_length]
  exact Nat.mod_le _ _

theorem parsed_login_content (h : 36 ≤ declared title) :
    (parsedLogin k title).content = RexData.encodeHead (loginHead k title)++
      (UInt8.ofNat title.length::title).take (declared title-36) := by
  rw [parsedLogin, login_frame_content, List.take_append, encode_head_length,
    List.take_of_length_le (by rw [encode_head_length]; exact h)]

theorem parsed_login_fields (h : 36 ≤ declared title) :
    (parsedLogin k title).command = .ok .login ∧ (parsedLogin k title).source = .ok k := by
  have hc := parsed_login_content k title h
  have hf : parsedLogin k title = ⟨RexData.encodeHead (loginHead k title)++
      (UInt8.ofNat title.length::title).take (declared title-36)⟩ := congrArg RexData.mk hc
  rw [hf]
  exact ⟨command_of_head _ _ (head_encode _ _),source_of_head _ _ (head_encode _ _)⟩

theorem parsed_login_byte (h : 36 < declared title) :
    (parsedLogin k title).content[36]? = some (UInt8.ofNat title.length) := by
  rw [parsed_login_content k title h.le,
    List.getElem?_append_right (by rw [encode_head_length]), encode_head_length,
    List.getElem?_take_of_lt (by omega)]
  rfl

theorem parsed_login_title (h : 37+title.length%256 ≤ declared title) :
    (parsedLogin k title).title = .ok (cut title) := by
  have hbyte := parsed_login_byte k title (by omega)
  have hle : declared title ≤ 37+title.length := Nat.mod_le _ _
  have hlen : (parsedLogin k title).content.length = declared title := by
    rw [parsedLogin, List.length_take, login_frame_length, Nat.min_eq_left hle]
  rw [RexData.title, title_len_ok _ _ hbyte]
  change (if _ < titleOffset+(UInt8.ofNat title.length).toNat then _ else _) = _
  rw [UInt8.toNat_ofNat', hlen, if_neg (by
    simp only [titleOffset, rexHeadLen, titleLenSize]
    omega)]
  have hdrop : (parsedLogin k title).content.drop 37 = title.take (declared title-37) := by
    rw [parsed_login_content k title (by omega), List.drop_append, encode_head_length,
      List.drop_of_length_le (by rw [encode_head_length]; decide), List.nil_append]
    obtain ⟨m, hm⟩ : ∃ m, declared title-36 = m+1 := ⟨declared title-37,by omega⟩
    rw [hm, List.take_succ_cons, show declared title-37 = m from by omega]
    rfl
  show Except.ok (slice 37 (title.length%256) (parsedLogin k title).content) = _
  rw [slice, hdrop, List.take_take, Nat.min_eq_left (by omega), cut]

theorem parsed_login_faults (h : ¬ 37+title.length%256 ≤ declared title) (env : Env)
    (c : ClientRef) (s t : Server) : handle env c (parsedLogin k title) s ≠ .ok t := by
  intro hok
  obtain ⟨command, hcommand, hok⟩ := bind_ok hok
  have hlong : 36 ≤ declared title := by
    by_contra hshort
    have hlen : (parsedLogin k title).content.length < rexHeadLen := by
      rw [parsedLogin, List.length_take]
      exact (Nat.min_le_left _ _).trans_lt (Nat.not_le.mp hshort)
    rw [RexData.command, RexData.head, if_pos hlen] at hcommand
    cases hcommand
  rw [(parsed_login_fields k title hlong).1] at hcommand
  cases hcommand
  obtain ⟨_, -, hok⟩ := bind_ok hok
  obtain ⟨u, htitle, -⟩ := bind_ok hok
  obtain ⟨b, hb, hle⟩ := titled_of_title _ u htitle
  have hlen : (parsedLogin k title).content.length ≤ declared title := by
    rw [parsedLogin, List.length_take]
    exact Nat.min_le_left _ _
  rw [parsed_login_byte k title (by omega)] at hb
  cases hb
  rw [UInt8.toNat_ofNat'] at hle
  omega

end Frames

/-- A connection to a server that does not know the id. -/
structure NewConnection (s : Server) (c : ClientRef) (k : ClientId) : Prop where
  unknown : s.live k = none
  unlisted : ∀ t, ∀ d ∈ s.registry.subscribers t, d ≠ c ∧ (s.clients d).id ≠ k
  blank : (s.clients c).subscribedTitles = []

theorem new_connection_build (config : RexSystemConfig) (cluster : ClusterPort)
    (db : Option SledDb) (clients : Clients) (c : ClientRef) (k : ClientId)
    (h : (clients c).subscribedTitles = []) :
    NewConnection (Server.build config cluster db clients) c k where
  unknown := rfl
  unlisted := by
    intro t d hd
    cases hd
  blank := h

theorem routable_login (env : Env) (c : ClientRef) (f : RexData) (s t : Server) (k : ClientId)
    (title : Bytes) (hnew : NewConnection s c k) (hc : f.command = .ok .login)
    (hk : f.source = .ok k) (ht : f.title = .ok title) (h : handle env c f s = .ok t)
    (u : Title) : Routable t k u ↔ u ∈ splitTitles title := by
  have hq := handle_login env c f s t k title hc hk ht h
  have hlogin : login env c k title s = enroll env c k title s := by
    rw [login, hnew.unknown]
  rw [hlogin] at hq
  rw [routable_congr _ t hq.registry hq.id k u]
  have htitles : u ∈ ((enroll env c k title s).clients c).subscribedTitles ↔
      u ∈ splitTitles title := by
    rw [enroll_object, RexClientInner.mem_insert_title, RexClientInner.setId]
    dsimp only
    rw [hnew.blank, or_iff_right List.not_mem_nil]
  constructor
  · intro hr
    obtain ⟨d, hd, hid⟩ := (routable_iff _ k u).mp hr
    rcases (mem_subscribers_enroll_iff env c k title s d u).mp hd with hd | ⟨rfl, hu, -⟩
    · obtain ⟨hdc, hdk⟩ := hnew.unlisted u d hd
      rw [id_enroll, if_neg hdc] at hid
      exact absurd hid hdk
    · exact htitles.mp hu
  · intro hu
    exact routable_enroll env c k title s u (htitles.mpr hu)

section Reconnect
variable (k : ClientId) (received : List (ClientEnv × RexData))

/-- The process after the frames it has received since it was opened. -/
def afterFrames (b : ClientBase) : ClientBase :=
  received.foldl (fun b e => b.receive e.1 e.2) b

theorem titled_after_frames (b : ClientBase) (h : b.Titled k) :
    (afterFrames received b).Titled k := by
  induction received generalizing b with
  | nil => exact h
  | cons e es ih => exact ih _ (ClientBase.titled_receive e.1 k e.2 b h)

theorem stringed_after_frames (b : ClientBase) (h : b.Titled k) (hs : b.Stringed)
    (hkept : ∀ e ∈ received, e.1.storeKept = true) : (afterFrames received b).Stringed := by
  induction received generalizing b with
  | nil => exact hs
  | cons e es ih =>
    exact ih _ (ClientBase.titled_receive e.1 k e.2 b h)
      (ClientBase.stringed_receive e.1 k e.2 b h hs (hkept e (by simp)))
      fun e he => hkept e (by simp [he])

theorem login_sends (env : ClientEnv) (b : ClientBase) (h : b.Titled k) :
    ∃ ok b', b.login env = .ok (ok,b') ∧ b'.sent = b.sent++[(loginFrame k b.title).content] := by
  unfold ClientBase.login
  cases hc : b.client with
  | none =>
    have hid := h.object
    rw [hc] at hid
    cases hid
  | some client =>
    have hid := (ClientBase.titled_client k client b h hc).1
    have hsource : (RexData.new .login b.title []).setSource client.id =
        .ok (loginFrame k b.title) := by
      rw [hid]
      exact set_source_login k b.title
    have hcommand : (loginFrame k b.title).command = .ok .login := by
      rw [login_frame_eq]
      exact command_of_head _ _ (head_encode _ _)
    have hsend : b.sendDataWithClient env client (.new .login b.title []) =
        .ok (b.sendBuf env (loginFrame k b.title).content) := by
      rw [ClientBase.sendDataWithClient, bind_of_ok hsource, bind_of_ok hcommand,
        show ClientBase.expectsAck .login = false from rfl, Bool.and_false]
      rfl
    refine ⟨(b.sendBuf env (loginFrame k b.title).content).1,
      (b.sendBuf env (loginFrame k b.title).content).2,hsend,?_⟩
    unfold ClientBase.sendBuf
    dsimp only
    split_ifs
    · rfl
    · rfl

/-- The login that the process sends, as the server decodes and handles it,
registers the client under exactly its own titles. -/
def Restored (clientEnv : ClientEnv) (env : Env) (c : ClientRef) (s : Server) (b : ClientBase) :
    Prop :=
  ∃ ok b' buf f rest t, b.login clientEnv = .ok (ok,b') ∧ b'.sent = b.sent++[buf] ∧
    RexData.tryDeserialize buf = (.ok (some f),rest) ∧ handle env c f s = .ok t ∧
    ∀ u, Routable t k u ↔ u ∈ b.ownTitles

theorem restored_iff_carried (clientEnv : ClientEnv) (env : Env) (c : ClientRef) (s : Server)
    (hnew : NewConnection s c k) (b : ClientBase) (h : b.Titled k) :
    Restored k clientEnv env c s b ↔ Carried b.title b.ownTitles := by
  obtain ⟨ok, b', hlogin, hsent⟩ := login_sends k clientEnv b h
  have hparsed := login_deserialized k b.title
  have hroute : 37+b.title.length%256 ≤ declared b.title → ∀ t,
      handle env c (parsedLogin k b.title) s = .ok t →
      ∀ u, Routable t k u ↔ u ∈ splitTitles (cut b.title) := by
    intro hin t ht u
    obtain ⟨hc, hk⟩ := parsed_login_fields k b.title (by omega)
    exact routable_login env c _ s t k _ hnew hc hk (parsed_login_title k b.title hin) ht u
  constructor
  · rintro ⟨ok₁, b₁, buf, f, rest, t, hlogin₁, hsent₁, hdecode, ht, hall⟩
    rw [hlogin] at hlogin₁
    cases hlogin₁
    rw [hsent] at hsent₁
    obtain rfl : (loginFrame k b.title).content = buf :=
      List.singleton_inj.mp (List.append_cancel_left hsent₁)
    rw [hparsed] at hdecode
    cases hdecode
    have hin : 37+b.title.length%256 ≤ declared b.title := by
      by_contra hout
      exact parsed_login_faults k b.title hout env c s t ht
    refine ⟨hin,fun u => ?_⟩
    rw [← hroute hin t ht u, hall u]
  · intro hcarried
    have htitle := parsed_login_title k b.title hcarried.inside
    have hlong := hcarried.inside
    obtain ⟨hc, -⟩ := parsed_login_fields k b.title (by omega)
    obtain ⟨t, ht⟩ := handle_ok env c (parsedLogin k b.title) s
      (fits_of_title _ _ htitle (by rw [hc]; exact nofun))
    refine ⟨ok,b',_,_,_,t,hlogin,hsent,hparsed,ht,fun u => ?_⟩
    rw [hroute hcarried.inside t ht u, hcarried.same u]

/-- Whatever titles a client has come to have, a login to a server that does
not know it restores them exactly when its title string carries them. It does
when every store of the string was kept and the string has at most 255 bytes;
for a string joined from a list without repetitions the length decides. -/
theorem login_restores_iff (title : Bytes) (sender : SenderRef) (now : UInt64)
    (ackEnabled : Bool) (clientEnv : ClientEnv) (env : Env) (c : ClientRef) (s : Server)
    (hnew : NewConnection s c k) :
    let b := afterFrames received (.opened k title sender now ackEnabled)
    (Restored k clientEnv env c s b ↔ Carried b.title b.ownTitles) ∧
      ((∀ e ∈ received, e.1.storeKept = true) → b.title.length ≤ 255 →
        Restored k clientEnv env c s b) ∧
      (b.ownTitles.Nodup → b.title = joinTitles b.ownTitles →
        (Restored k clientEnv env c s b ↔ b.title.length ≤ 255)) := by
  intro b
  have hopened := ClientBase.titled_opened k title sender now ackEnabled
  have h : b.Titled k := titled_after_frames k received _ hopened
  have hiff := restored_iff_carried k clientEnv env c s hnew b h
  refine ⟨hiff,fun hkept hshort => ?_,fun hnodup hjoin => ?_⟩
  · exact hiff.mpr (carried_of_short b.title b.ownTitles (stringed_after_frames k received _ hopened
      (ClientBase.stringed_opened k title sender now ackEnabled) hkept) hshort)
  · rw [hiff, hjoin]
    exact carried_join_iff b.ownTitles h.single hnodup

end Reconnect

/-- The reply that the title `b` is registered. -/
def gained : RexData := .new .regTitleReturn [98] []

/-- A title asked for at the start and one gained by a reply are registered at
a new server, if the store was kept; otherwise the gained one is not. -/
theorem two_titles_restored :
    (afterFrames [(⟨0,true,0,true⟩,gained)] (.opened 7 [97] 0 0 false)).ownTitles = [[97],[98]] ∧
      Restored 7 ⟨0,true,0,true⟩ quietEnv 0 (Server.build plainConfig .noop none unusedClients)
        (afterFrames [(⟨0,true,0,true⟩,gained)] (.opened 7 [97] 0 0 false)) ∧
      ¬ Restored 7 ⟨0,true,0,true⟩ quietEnv 0 (Server.build plainConfig .noop none unusedClients)
        (afterFrames [(⟨0,true,0,false⟩,gained)] (.opened 7 [97] 0 0 false)) := by
  have hnew := new_connection_build plainConfig .noop none unusedClients 0 7 rfl
  refine ⟨by decide +kernel,?_,fun h => ?_⟩
  · exact (login_restores_iff 7 _ [97] 0 0 false ⟨0,true,0,true⟩ quietEnv 0 _ hnew).2.1
      (by decide) (by decide +kernel)
  · have hc := (login_restores_iff 7 _ [97] 0 0 false ⟨0,true,0,true⟩ quietEnv 0 _ hnew).1.mp h
    have hin := (hc.same [98]).mpr (by decide +kernel)
    revert hin
    decide +kernel

/-- A title of 256 bytes is read as the empty string and not registered. -/
theorem long_title_not_restored :
    let b := ClientBase.opened 7 (List.replicate 256 97) 0 0 false
    let s := Server.build plainConfig .noop none unusedClients
    b.ownTitles = [List.replicate 256 97] ∧
      (∃ t ∈ (handle quietEnv 0 (parsedLogin 7 b.title) s).toOption,
        t.live 7 = some 0 ∧ (t.clients 0).subscribedTitles = [] ∧
          ¬ Routable t 7 (List.replicate 256 97)) ∧
      ¬ Restored 7 ⟨0,true,0,true⟩ quietEnv 0 s b := by
  intro b s
  refine ⟨by decide +kernel,by decide +kernel,fun h => ?_⟩
  have hnew := new_connection_build plainConfig .noop none unusedClients 0 7 rfl
  have htitled : b.Titled 7 := ClientBase.titled_opened 7 _ 0 0 false
  have hc := (restored_iff_carried 7 ⟨0,true,0,true⟩ quietEnv 0 s hnew b htitled).mp h
  have hin := (hc.same (List.replicate 256 97)).mpr (by decide +kernel)
  revert hin
  decide +kernel

end RexMq.TitleRestore

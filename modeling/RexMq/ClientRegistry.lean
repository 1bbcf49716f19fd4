import Mathlib.Data.Finset.Card
import Mathlib.Tactic.Common
import RexMq.ByteWords
import RexMq.RelationIndex

/-!
# Client objects and the client registry

A connection owns a client object which the registry shares: logging in
rewrites the id, the sender and the titles of an object in place while two
tables refer to it. Objects are therefore reached through references into a
heap, and the registry functions take the heap they read. A lock-free map is
a finite map; its iteration order is the order of the map.
-/

set_option autoImplicit false

namespace RexMq.ClientRegistry
open RexMq.ByteWords RexMq.RelationIndex

abbrev ClientId := BitVec 128
abbrev Title := Bytes
abbrev ClientRef := ℕ
abbrev SenderRef := ℕ

structure RexClientInner where
  id : ClientId
  subscribedTitles : List Title
  label : Option String
  connectedAt : UInt64
  sender : SenderRef
  lastRecv : UInt64
  deriving DecidableEq, Repr

/-- `title.split(';')` without its empty parts. -/
def splitTitles (title : Bytes) : List Title := (title.splitOn 59).filter (fun t => t ≠ [])

/-- A title that is one of its own components. -/
def SingleTitle (title : Title) : Prop := title ≠ [] ∧ 59 ∉ title

instance (title : Title) : Decidable (SingleTitle title) := inferInstanceAs (Decidable (_ ∧ _))

theorem split_single (title : Title) (h : SingleTitle title) : splitTitles title = [title] := by
  have hs : title.splitOn 59 = [title] := by
    rw [List.splitOn]
    refine List.splitOnP_eq_singleton fun x hx => ?_
    have : x ≠ 59 := fun he => h.2 (he ▸ hx)
    simpa using this
  simp [splitTitles, hs, h.1]

theorem split_on_clean (sep : UInt8) (bs part : Bytes) (h : part ∈ bs.splitOn sep) :
    sep ∉ part := by
  induction bs generalizing part with
  | nil =>
    rw [List.splitOn_nil, List.mem_singleton] at h
    rw [h]
    exact List.not_mem_nil
  | cons b bs ih =>
    rw [List.splitOn_cons_eq_if_modifyHead] at h
    split_ifs at h with hb
    · rcases List.mem_cons.mp h with rfl | h
      · exact List.not_mem_nil
      · exact ih part h
    · cases hs : bs.splitOn sep with
      | nil => exact absurd hs (List.splitOn_ne_nil _ _)
      | cons first rest =>
        rw [hs] at h ih
        rcases List.mem_cons.mp h with rfl | h
        · intro hin
          rcases List.mem_cons.mp hin with rfl | hin
          · exact hb (beq_self_eq_true _)
          · exact ih first List.mem_cons_self hin
        · exact ih part (List.mem_cons_of_mem _ h)

theorem single_of_split (title : Bytes) (t : Title) (h : t ∈ splitTitles title) :
    SingleTitle t := by
  obtain ⟨hin, hne⟩ := List.mem_filter.mp h
  exact ⟨by simpa using hne,split_on_clean 59 title t hin⟩

/-- `titles.join(";")`. -/
def joinTitles (ts : List Title) : Bytes := [59].intercalate ts

theorem split_join (ts : List Title) (h : ∀ t ∈ ts, SingleTitle t) :
    splitTitles (joinTitles ts) = ts := by
  have hkept : ts.filter (fun t => t ≠ []) = ts :=
    List.filter_eq_self.mpr (fun t ht => by simpa using (h t ht).1)
  cases ts with
  | nil => rfl
  | cons t ts =>
    rw [splitTitles, joinTitles,
      List.splitOn_intercalate 59 (fun u hu => (h u hu).2) (List.cons_ne_nil t ts), hkept]

namespace RexClientInner

def new (id : ClientId) (title : Bytes) (sender : SenderRef) (now : UInt64) : RexClientInner :=
  { id := id
    subscribedTitles := splitTitles title
    label := none
    connectedAt := now
    sender := sender
    lastRecv := now }

def setId (id : ClientId) (c : RexClientInner) : RexClientInner := { c with id := id }

def setSender (sender : SenderRef) (c : RexClientInner) : RexClientInner :=
  { c with sender := sender }

def setTransportLabel (label : String) (c : RexClientInner) : RexClientInner :=
  { c with label := some label.toLower }

def transportLabel (c : RexClientInner) : String := c.label.getD "unknown"

def insertTitle (title : Bytes) (c : RexClientInner) : RexClientInner :=
  { c with
    subscribedTitles := (splitTitles title).foldl (fun ts t => if t ∈ ts then ts else ts++[t])
      c.subscribedTitles }

def removeTitle (title : Bytes) (c : RexClientInner) : RexClientInner :=
  { c with subscribedTitles := c.subscribedTitles.filter (fun t => t ≠ title) }

def titleStr (c : RexClientInner) : Bytes := joinTitles c.subscribedTitles

def updateLastRecv (now : UInt64) (c : RexClientInner) : RexClientInner :=
  { c with lastRecv := now }

theorem mem_push_missing (ts us : List Title) (t : Title) :
    t ∈ ts.foldl (fun us t => if t ∈ us then us else us++[t]) us ↔ t ∈ us ∨ t ∈ ts := by
  induction ts generalizing us with
  | nil => simp
  | cons u ts ih =>
    rw [List.foldl_cons, ih, List.mem_cons]
    split_ifs with hu
    · constructor
      · rintro (h | h)
        · exact .inl h
        · exact .inr (.inr h)
      · rintro (h | rfl | h)
        · exact .inl h
        · exact .inl hu
        · exact .inr h
    · simp only [List.mem_append, List.mem_singleton, or_assoc]

theorem mem_insert_title (title : Bytes) (c : RexClientInner) (t : Title) :
    t ∈ (c.insertTitle title).subscribedTitles ↔
      t ∈ c.subscribedTitles ∨ t ∈ splitTitles title :=
  mem_push_missing _ _ t

theorem mem_remove_title (title : Bytes) (c : RexClientInner) (t : Title) :
    t ∈ (c.removeTitle title).subscribedTitles ↔ t ∈ c.subscribedTitles ∧ t ≠ title := by
  simp [removeTitle]

end RexClientInner

abbrev Clients := ClientRef → RexClientInner

def modify (h : Clients) (c : ClientRef) (f : RexClientInner → RexClientInner) : Clients :=
  Function.update h c (f (h c))

@[simp] theorem modify_same (h : Clients) (c : ClientRef) (f : RexClientInner → RexClientInner) :
    modify h c f c = f (h c) := by
  simp [modify]

@[simp] theorem modify_other (h : Clients) (c d : ClientRef)
    (f : RexClientInner → RexClientInner) (hd : d ≠ c) : modify h c f d = h d := by
  simp [modify, hd]

theorem modify_field {β : Type*} (h : Clients) (c d : ClientRef)
    (f : RexClientInner → RexClientInner) (g : RexClientInner → β)
    (hg : g (f (h c)) = g (h c)) : g (modify h c f d) = g (h d) := by
  by_cases hd : d = c
  · rw [hd, modify_same, hg]
  · rw [modify_other h c d f hd]

structure ClientSnapshot where
  id : ClientId
  transport : String
  titles : List Title
  connectedSecs : UInt64
  deriving DecidableEq, Repr

inductive DuplicateClient where
  | live | ghost
  deriving DecidableEq, Repr

structure ClientRegistryImpl where
  id2client : AList (fun _ : ClientId => ClientRef)
  title2clients : Index Title ClientRef
  ghosts : AList (fun _ : ClientId => List Title × UInt64)

def saturatingSub (a b : UInt64) : UInt64 := if b ≤ a then a-b else 0

theorem saturating_sub_toNat (a b : UInt64) :
    (saturatingSub a b).toNat = a.toNat-b.toNat := by
  unfold saturatingSub
  split_ifs with h
  · exact UInt64.toNat_sub_of_le a b h
  · rw [UInt64.le_iff_toNat_le] at h
    rw [UInt64.toNat_zero]
    omega

/-- The seconds from `s` to `now`, negative when the clock was set back. -/
def elapsed (s now : UInt64) : ℤ := now.toNat-s.toNat

theorem lt_saturating_sub_iff (secs s now : UInt64) :
    secs < saturatingSub now s ↔ secs.toNat < elapsed s now := by
  rw [UInt64.lt_iff_toNat_lt, saturating_sub_toNat, elapsed]
  omega

def saturatingAdd (a b : UInt64) : UInt64 :=
  if a.toNat+b.toNat < 2^64 then a+b else UInt64.ofNat (2^64-1)

namespace ClientRegistryImpl

def new : ClientRegistryImpl := ⟨∅,∅,∅⟩

def findSomeById (k : ClientId) (r : ClientRegistryImpl) : Option ClientRef := r.id2client.lookup k

/-- The list under a title; the lookups treat a missing one as empty. -/
def subscribers (t : Title) (r : ClientRegistryImpl) : List ClientRef := listed r.title2clients t

def addClient (h : Clients) (c : ClientRef) (r : ClientRegistryImpl) : ClientRegistryImpl :=
  let id := (h c).id
  { r with
    id2client := r.id2client.insert id c
    title2clients := (h c).subscribedTitles.foldl (enlist (fun d => (h d).id) id c)
      r.title2clients }

def removeClient (h : Clients) (k : ClientId) (r : ClientRegistryImpl) :
    Option ClientRef × ClientRegistryImpl :=
  match r.id2client.lookup k with
  | none => (none,r)
  | some c => (some c,
    { r with
      id2client := r.id2client.erase k
      title2clients := (h c).subscribedTitles.foldl (delist (fun d => (h d).id) k)
        r.title2clients })

/-- The title string enters the table as a whole, while the client's own list
gets its components. -/
def registerTitle (h : Clients) (k : ClientId) (title : Bytes) (r : ClientRegistryImpl) :
    Clients × ClientRegistryImpl :=
  match r.id2client.lookup k with
  | none => (h,r)
  | some c =>
    let h := modify h c (.insertTitle title)
    (h,{ r with title2clients := enlist (fun d => (h d).id) k c r.title2clients title })

def unregisterTitle (h : Clients) (k : ClientId) (title : Bytes) (r : ClientRegistryImpl) :
    Clients × ClientRegistryImpl :=
  match r.id2client.lookup k with
  | none => (h,r)
  | some c =>
    let h := modify h c (.removeTitle title)
    (h,{ r with title2clients := delist (fun d => (h d).id) k r.title2clients title })

def findAll (r : ClientRegistryImpl) : List ClientRef := r.id2client.entries.map Sigma.snd

def findAllByTitle (h : Clients) (title : Title) (exclude : Option ClientId)
    (r : ClientRegistryImpl) : List ClientRef :=
  match r.title2clients.lookup title with
  | none => []
  | some cs => cs.filter (fun c => exclude ≠ some (h c).id)

/-- `choose` picks the element that the random `draw` falls on. -/
def findOneByTitle (h : Clients) (draw : ℕ) (title : Title) (exclude : Option ClientId)
    (r : ClientRegistryImpl) : Option ClientRef :=
  match r.title2clients.lookup title with
  | none => none
  | some cs =>
    let eligible := cs.filter (fun c => exclude ≠ some (h c).id)
    eligible[draw%eligible.length]?

def takeInactive (h : Clients) (now timeoutSecs : UInt64) (r : ClientRegistryImpl) :
    List ClientId :=
  (r.id2client.entries.filter
    (fun e => timeoutSecs < saturatingSub now (h e.2).lastRecv)).map Sigma.fst

def snapshot (h : Clients) (now : UInt64) (c : ClientRef) : ClientSnapshot :=
  { id := (h c).id
    transport := (h c).transportLabel
    titles := (h c).subscribedTitles
    connectedSecs := saturatingSub now (h c).connectedAt }

def listSnapshots (h : Clients) (now : UInt64) (r : ClientRegistryImpl) : List ClientSnapshot :=
  r.id2client.entries.map (fun e => snapshot h now e.2)

def titleCount (r : ClientRegistryImpl) : ℕ := r.title2clients.entries.length

def clientCount (r : ClientRegistryImpl) : ℕ := r.id2client.entries.length

def addGhost (k : ClientId) (titles : List Title) (ghostUntil : UInt64) (r : ClientRegistryImpl) :
    Except DuplicateClient ClientRegistryImpl :=
  if k ∈ r.id2client then .error .live
  else if k ∈ r.ghosts then .error .ghost
  else .ok { r with ghosts := r.ghosts.insert k (titles,ghostUntil) }

def claimGhost (k : ClientId) (r : ClientRegistryImpl) : ClientRegistryImpl :=
  { r with ghosts := r.ghosts.erase k }

def removeGhost (k : ClientId) (r : ClientRegistryImpl) : ClientRegistryImpl :=
  { r with ghosts := r.ghosts.erase k }

def ghostTitles (k : ClientId) (r : ClientRegistryImpl) : Option (List Title) :=
  (r.ghosts.lookup k).map Prod.fst

theorem find_add_client (h : Clients) (c : ClientRef) (r : ClientRegistryImpl) (k : ClientId) :
    (r.addClient h c).findSomeById k = if k = (h c).id then some c else r.findSomeById k := by
  simp only [findSomeById, addClient]
  split_ifs with hk
  · rw [hk, AList.lookup_insert]
  · rw [AList.lookup_insert_ne hk]

theorem mem_subscribers_add_client (h : Clients) (c d : ClientRef) (r : ClientRegistryImpl)
    (t : Title) :
    d ∈ (r.addClient h c).subscribers t ↔ d ∈ r.subscribers t ∨
      d = c ∧ t ∈ (h c).subscribedTitles ∧ ∀ e ∈ r.subscribers t, (h e).id ≠ (h c).id :=
  mem_listed_enlists ..

theorem find_remove_client (h : Clients) (k j : ClientId) (r : ClientRegistryImpl) :
    (r.removeClient h k).2.findSomeById j = if j = k then none else r.findSomeById j := by
  simp only [findSomeById, removeClient]
  cases hl : r.id2client.lookup k with
  | none =>
    split_ifs with hj
    · rw [hj, hl]
    · rfl
  | some c =>
    split_ifs with hj
    · rw [hj, AList.lookup_erase]
    · rw [AList.lookup_erase_ne hj]

theorem removed_client (h : Clients) (k : ClientId) (r : ClientRegistryImpl) :
    (r.removeClient h k).1 = r.findSomeById k := by
  simp only [findSomeById, removeClient]
  cases r.id2client.lookup k <;> rfl

theorem remove_client_none (h : Clients) (k : ClientId) (r : ClientRegistryImpl)
    (hn : r.findSomeById k = none) : (r.removeClient h k).2 = r := by
  rw [findSomeById] at hn
  simp [removeClient, hn]

theorem mem_subscribers_remove_client (h : Clients) (k : ClientId) (d : ClientRef)
    (r : ClientRegistryImpl) (t : Title) :
    d ∈ (r.removeClient h k).2.subscribers t ↔ d ∈ r.subscribers t ∧
      ¬ ∃ c, r.findSomeById k = some c ∧ t ∈ (h c).subscribedTitles ∧ (h d).id = k := by
  simp only [findSomeById, removeClient, subscribers]
  cases hl : r.id2client.lookup k with
  | none => simp
  | some c => simp [mem_listed_delists]

@[simp] theorem ghosts_remove_client (h : Clients) (k : ClientId) (r : ClientRegistryImpl) :
    (r.removeClient h k).2.ghosts = r.ghosts := by
  simp only [removeClient]
  cases r.id2client.lookup k <;> rfl

theorem register_title_none (h : Clients) (k : ClientId) (title : Bytes)
    (r : ClientRegistryImpl) (hn : r.findSomeById k = none) :
    r.registerTitle h k title = (h,r) := by
  rw [findSomeById] at hn
  simp [registerTitle, hn]

theorem unregister_title_none (h : Clients) (k : ClientId) (title : Bytes)
    (r : ClientRegistryImpl) (hn : r.findSomeById k = none) :
    r.unregisterTitle h k title = (h,r) := by
  rw [findSomeById] at hn
  simp [unregisterTitle, hn]

theorem register_title_some (h : Clients) (k : ClientId) (title : Bytes) (c : ClientRef)
    (r : ClientRegistryImpl) (hs : r.findSomeById k = some c) :
    r.registerTitle h k title = (modify h c (.insertTitle title),
      { r with title2clients := enlist (fun d => (h d).id) k c r.title2clients title }) := by
  rw [findSomeById] at hs
  have hid : ∀ d, (modify h c (.insertTitle title) d).id = (h d).id :=
    fun d => modify_field h c d _ RexClientInner.id rfl
  simp [registerTitle, hs, hid]

theorem unregister_title_some (h : Clients) (k : ClientId) (title : Bytes) (c : ClientRef)
    (r : ClientRegistryImpl) (hs : r.findSomeById k = some c) :
    r.unregisterTitle h k title = (modify h c (.removeTitle title),
      { r with title2clients := delist (fun d => (h d).id) k r.title2clients title }) := by
  rw [findSomeById] at hs
  have hid : ∀ d, (modify h c (.removeTitle title) d).id = (h d).id :=
    fun d => modify_field h c d _ RexClientInner.id rfl
  simp [unregisterTitle, hs, hid]

theorem find_all_by_title_eq (h : Clients) (t : Title) (x : Option ClientId)
    (r : ClientRegistryImpl) :
    r.findAllByTitle h t x = (r.subscribers t).filter (fun c => x ≠ some (h c).id) := by
  rw [findAllByTitle, subscribers, listed]
  cases r.title2clients.lookup t <;> simp

theorem find_one_by_title_eq (h : Clients) (draw : ℕ) (t : Title) (x : Option ClientId)
    (r : ClientRegistryImpl) :
    r.findOneByTitle h draw t x =
      (r.findAllByTitle h t x)[draw%(r.findAllByTitle h t x).length]? := by
  rw [findOneByTitle, findAllByTitle]
  cases r.title2clients.lookup t <;> simp

end ClientRegistryImpl

/-- `RegistryObsAdapter::title_count`: the set of all titles of the snapshots. -/
def obsTitleCount (h : Clients) (now : UInt64) (r : ClientRegistryImpl) : ℕ :=
  ((r.listSnapshots h now).foldl
    (fun titles snap => snap.titles.foldl (fun titles t => insert t titles) titles)
    (∅ : Finset Title)).card

end RexMq.ClientRegistry

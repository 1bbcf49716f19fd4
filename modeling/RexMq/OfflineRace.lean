import Mathlib.Tactic.Common
import RexMq.OfflineQueues

/-!
# Two messages queued for one client at the same time

`add_offline_message` reads the size of the index, makes room if it must,
writes the record, reads the index and writes it back with the new id. Each
of these is one call of the store and nothing holds them together, so two
tasks may both read the index before either writes it. The one that writes
last then drops the id of the other. Here two calls run in any order of their
steps, and the loss is traced to the write of an index without the id of a
call that is already done.
-/

set_option autoImplicit false

namespace RexMq.OfflineRace
open RexMq.ByteWords RexMq.FiniteRun RexMq.ClientRegistry RexMq.PersistentStore
open RexMq.OfflineQueues

/-- What a call of `add_offline_message` does next, with what it has read. -/
inductive Stage where
  | size
  | oldest
  | shrink (id : BitVec 64)
  | shrunk (id : BitVec 64) (ids : List (BitVec 64))
  | drop (id : BitVec 64)
  | record
  | index
  | write (ids : List (BitVec 64))
  | done
  deriving DecidableEq, Repr

/-- One call of the store. The stages from `oldest` to `drop` are
`remove_oldest_offline`, which a full queue needs. -/
def addStep (m : OfflineMessage) (stage : Stage) (db : SledDb) : Stage × SledDb :=
  match stage with
  | .size =>
    let currentSize := ((db.offlineIndex.lookup m.clientId).map List.length).getD 0
    (if maxQueueSize ≤ currentSize then .oldest else .record,db)
  | .oldest =>
    match db.getOfflineMessageIds m.clientId with
    | [] => (.record,db)
    | id::_ => (.shrink id,db)
  | .shrink id =>
    (.shrunk id ((db.getOfflineMessageIds m.clientId).filter (fun i => i ≠ id)),db)
  | .shrunk id ids => (.drop id,db.insertIndex m.clientId ids)
  | .drop id => (.record,db.removeRecord id)
  | .record => (.index,db.insertRecord m)
  | .index => (.write (db.getOfflineMessageIds m.clientId++[m.id]),db)
  | .write ids => (.done,db.insertIndex m.clientId ids)
  | .done => (.done,db)

def addSteps (m : OfflineMessage) (x : Stage × SledDb) : Stage × SledDb := addStep m x.1 x.2

/-- A call whose steps run with nothing between them is the whole call. -/
theorem add_alone (m : OfflineMessage) (db : SledDb) :
    (addSteps m)^[8] (.size,db) = (.done,db.addOfflineMessage m) := by
  have htail : ∀ d : SledDb, (addSteps m)^[3] (.record,d) =
      (.done,(d.insertRecord m).insertIndex m.clientId
        ((d.insertRecord m).getOfflineMessageIds m.clientId++[m.id])) := fun _ => rfl
  have hdone : ∀ n d, (addSteps m)^[n] (.done,d) = (.done,d) :=
    fun n d => Function.iterate_fixed rfl n
  rw [SledDb.addOfflineMessage, SledDb.makeRoom]
  split_ifs with hfull
  · rw [SledDb.removeOldestOffline]
    have hsize : addSteps m (.size,db) = (.oldest,db) := by
      show (if _ then _ else _, db) = _
      rw [if_pos hfull]
    rw [Function.iterate_succ_apply, hsize, Function.iterate_succ_apply]
    cases hids : db.getOfflineMessageIds m.clientId with
    | nil =>
      have holdest : addSteps m (.oldest,db) = (.record,db) := by
        show addStep m .oldest db = _
        rw [addStep, hids]
      rw [holdest, show 6 = 3+3 from rfl, Function.iterate_add_apply, htail, hdone]
    | cons id ids =>
      have holdest : addSteps m (.oldest,db) = (.shrink id,db) := by
        show addStep m .oldest db = _
        rw [addStep, hids]
      rw [holdest, show 6 = 3+3 from rfl, Function.iterate_add_apply]
      exact htail _
  · have hsize : addSteps m (.size,db) = (.record,db) := by
      show (if _ then _ else _, db) = _
      rw [if_neg hfull]
    rw [Function.iterate_succ_apply, hsize, show 7 = 4+3 from rfl, Function.iterate_add_apply,
      htail, hdone]

/-- The store and the two calls. -/
structure Race where
  db : SledDb
  tasks : Bool → Stage

section Runs
variable (k : ClientId) (msgs : Bool → OfflineMessage)

def raceStep (x : Race) (i : Bool) : Race :=
  let r := addStep (msgs i) (x.tasks i) x.db
  ⟨r.2,Function.update x.tasks i r.1⟩

def race (db : SledDb) : Race := ⟨db,fun _ => .size⟩

def toWrite : Stage → Option (List (BitVec 64))
  | .write ids => some ids
  | _ => none

/-- The index that is written has the id of the other call if that is done. -/
def Current (x : Race) (i : Bool) : Prop :=
  ∀ ids ∈ toWrite (x.tasks i), x.tasks (!i) = .done → (msgs (!i)).id ∈ ids

def Listed (x : Race) : Prop :=
  ∀ i, x.tasks i = .done → (msgs i).id ∈ x.db.getOfflineMessageIds k

def Recorded : Stage → Prop
  | .index | .write _ | .done => True
  | _ => False

def finished (x : Race) : ℕ :=
  (if x.tasks true = .done then 1 else 0)+(if x.tasks false = .done then 1 else 0)

theorem finished_eq (x : Race) (i : Bool) :
    finished x = (if x.tasks i = .done then 1 else 0)+(if x.tasks (!i) = .done then 1 else 0) := by
  cases i
  · exact Nat.add_comm _ _
  · rfl

/-- What holds in every order of the steps, with room for both messages. -/
structure Running (db : SledDb) (x : Race) : Prop where
  filed : Filed x.db
  roomy : ∀ i, x.tasks i = .size ∨ x.tasks i = .record ∨ Recorded (x.tasks i)
  length : (x.db.getOfflineMessageIds k).length ≤ db.getOfflineCount k+finished x
  before : ∀ id ∈ db.getOfflineMessageIds k, id ∈ x.db.getOfflineMessageIds k
  read : ∀ i ids, x.tasks i = .write ids → ids.length ≤ db.getOfflineCount k+finished x+1 ∧
    (msgs i).id ∈ ids ∧ ∀ id ∈ db.getOfflineMessageIds k, id ∈ ids
  first : ∀ i, x.tasks i = .done → x.tasks (!i) ≠ .done →
    (msgs i).id ∈ x.db.getOfflineMessageIds k
  recorded : ∀ i, Recorded (x.tasks i) → x.db.offlineQueue.lookup (msgs i).id = some (msgs i)
  others : ∀ m, Kept k m db → (∀ i, m.id = (msgs i).id → m = msgs i) →
    x.db.offlineQueue.lookup m.id = some m

theorem running_race (db : SledDb) (hf : Filed db) : Running k msgs db (race db) where
  filed := hf
  roomy _ := .inl rfl
  length := Nat.le_add_right _ _
  before _ hid := hid
  read _ _ h := by cases h
  first _ h := by cases h
  recorded _ h := h.elim
  others _ h _ := h.2

section Steps
variable {k msgs} {db : SledDb} {x : Race} (hne : (msgs true).id ≠ (msgs false).id)

include hne in
theorem own_id (i j : Bool) (hid : (msgs j).id = (msgs i).id) : j = i := by
  cases i <;> cases j
  · rfl
  · exact absurd hid hne
  · exact absurd hid.symm hne
  · rfl

theorem done_update (tasks : Bool → Stage) (i j : Bool) (stage : Stage) (hopen : tasks i ≠ .done)
    (hnot : stage ≠ .done) : Function.update tasks i stage j = .done ↔ tasks j = .done := by
  rw [Function.update_apply]
  split_ifs with hj
  · subst hj
    exact iff_of_false hnot hopen
  · rfl

variable (h : Running k msgs db x)
include h

include hne in
theorem running_move (i : Bool) (stage : Stage) (db' : SledDb) (hopen : x.tasks i ≠ .done)
    (hstage : stage = .record ∨ Recorded stage ∧ stage ≠ .done)
    (hids : db'.getOfflineMessageIds k = x.db.getOfflineMessageIds k) (hfiled : Filed db')
    (hread : ∀ ids, stage = .write ids → ids = x.db.getOfflineMessageIds k++[(msgs i).id])
    (hown : Recorded stage → db'.offlineQueue.lookup (msgs i).id = some (msgs i))
    (hrecords : ∀ id, id ≠ (msgs i).id → db'.offlineQueue.lookup id = x.db.offlineQueue.lookup id)
    (hsame : x.db.offlineQueue.lookup (msgs i).id = some (msgs i) →
      db'.offlineQueue.lookup (msgs i).id = some (msgs i)) :
    Running k msgs db ⟨db',Function.update x.tasks i stage⟩ := by
  have hnot : stage ≠ .done := by
    rcases hstage with rfl | ⟨-, hd⟩
    · exact Stage.noConfusion
    · exact hd
  have hdone := fun j => done_update x.tasks i j stage hopen hnot
  have hfin : finished ⟨db',Function.update x.tasks i stage⟩ = finished x := by
    unfold finished
    dsimp only
    simp only [hdone]
  constructor
  case filed => exact hfiled
  case roomy =>
    intro j
    dsimp only
    rw [Function.update_apply]
    split_ifs
    · exact .inr (hstage.imp_right And.left)
    · exact h.roomy j
  case length =>
    rw [hfin]
    dsimp only
    rw [hids]
    exact h.length
  case before =>
    dsimp only
    rw [hids]
    exact h.before
  case read =>
    intro j ids hj
    dsimp only at hj
    rw [hfin]
    rw [Function.update_apply] at hj
    split_ifs at hj with hji
    · subst hji
      obtain rfl := hread ids hj
      refine ⟨?_,List.mem_append_right _ (List.mem_singleton_self _),
        fun id hid => List.mem_append_left _ (h.before id hid)⟩
      rw [List.length_append, List.length_singleton]
      exact Nat.succ_le_succ h.length
    · exact h.read j ids hj
  case first =>
    intro j hj hother
    dsimp only at hj hother ⊢
    rw [hids]
    exact h.first j ((hdone j).mp hj) (fun hc => hother ((hdone _).mpr hc))
  case recorded =>
    intro j hj
    dsimp only at hj ⊢
    by_cases hji : j = i
    · subst hji
      rw [Function.update_self] at hj
      exact hown hj
    · rw [Function.update_of_ne hji] at hj
      rw [hrecords _ (fun hid => hji (own_id hne i j hid))]
      exact h.recorded j hj
  case others =>
    intro m hm hnew
    dsimp only
    have hx := h.others m hm hnew
    by_cases hid : m.id = (msgs i).id
    · obtain rfl := hnew i hid
      exact hsame hx
    · rw [hrecords _ hid]
      exact hx

theorem running_write (i : Bool) (ids : List (BitVec 64)) (hi : x.tasks i = .write ids) :
    Running k msgs db ⟨x.db.insertIndex k ids,Function.update x.tasks i .done⟩ := by
  obtain ⟨hlen, hown, hbefore⟩ := h.read i ids hi
  have hids : (x.db.insertIndex k ids).getOfflineMessageIds k = ids := by
    rw [SledDb.ids_insert_index, if_pos rfl]
  have hne : (!i) ≠ i := Bool.not_ne_self i
  have hfin : finished ⟨x.db.insertIndex k ids,Function.update x.tasks i .done⟩ =
      finished x+1 := by
    rw [finished_eq _ i, finished_eq x i, hi]
    simp only [Function.update_self, Function.update_of_ne hne, if_true, reduceCtorEq, if_false]
    omega
  constructor
  case filed => exact h.filed
  case roomy =>
    intro j
    dsimp only
    rw [Function.update_apply]
    split_ifs
    · exact .inr (.inr trivial)
    · exact h.roomy j
  case length =>
    rw [hfin]
    dsimp only
    rw [hids]
    exact hlen
  case before =>
    dsimp only
    rw [hids]
    exact hbefore
  case read =>
    intro j js hj
    dsimp only at hj
    rw [Function.update_apply] at hj
    split_ifs at hj
    obtain ⟨hl, hrest⟩ := h.read j js hj
    rw [hfin]
    exact ⟨Nat.le_succ_of_le hl,hrest⟩
  case first =>
    intro j hj hother
    dsimp only at hj hother ⊢
    rw [hids]
    by_cases hji : j = i
    · subst hji
      exact hown
    · rw [Bool.not_eq.mpr hji, Function.update_self] at hother
      exact absurd rfl hother
  case recorded =>
    intro j hj
    dsimp only at hj ⊢
    rw [SledDb.record_insert_index]
    by_cases hji : j = i
    · subst hji
      exact h.recorded j (by rw [hi]; trivial)
    · rw [Function.update_of_ne hji] at hj
      exact h.recorded j hj
  case others => exact h.others

theorem race_step_eq (hk : ∀ i, (msgs i).clientId = k)
    (hroom : db.getOfflineCount k+2 ≤ maxQueueSize) (i : Bool) :
    (x.tasks i = .size ∧ raceStep msgs x i = ⟨x.db,Function.update x.tasks i .record⟩) ∨
    (x.tasks i = .record ∧
      raceStep msgs x i = ⟨x.db.insertRecord (msgs i),Function.update x.tasks i .index⟩) ∨
    (x.tasks i = .index ∧ raceStep msgs x i = ⟨x.db,Function.update x.tasks i
      (.write (x.db.getOfflineMessageIds k++[(msgs i).id]))⟩) ∨
    (∃ ids, x.tasks i = .write ids ∧
      raceStep msgs x i = ⟨x.db.insertIndex k ids,Function.update x.tasks i .done⟩) ∨
    (x.tasks i = .done ∧ raceStep msgs x i = x) := by
  have hroomy := h.roomy i
  unfold raceStep
  cases hi : x.tasks i with
  | size =>
    have hlen := h.length
    rw [finished_eq x i, hi] at hlen
    have hfree : ¬ maxQueueSize ≤
        ((x.db.offlineIndex.lookup (msgs i).clientId).map List.length).getD 0 := by
      rw [hk, SledDb.current_size_eq, SledDb.getOfflineCount]
      simp only [reduceCtorEq, if_false] at hlen
      split_ifs at hlen <;> omega
    left
    rw [addStep, if_neg hfree]
    exact ⟨rfl,rfl⟩
  | record => exact .inr (.inl ⟨rfl,rfl⟩)
  | index =>
    right; right; left
    rw [addStep, hk]
    exact ⟨rfl,rfl⟩
  | write ids =>
    right; right; right; left
    refine ⟨ids,rfl,?_⟩
    rw [addStep, hk]
  | done =>
    right; right; right; right
    refine ⟨rfl,?_⟩
    rw [addStep, ← hi]
    dsimp only
    rw [Function.update_eq_self]
  | oldest => simp [hi, Recorded] at hroomy
  | shrink id => simp [hi, Recorded] at hroomy
  | shrunk id ids => simp [hi, Recorded] at hroomy
  | drop id => simp [hi, Recorded] at hroomy

include hne in
theorem running_step (hk : ∀ i, (msgs i).clientId = k)
    (hroom : db.getOfflineCount k+2 ≤ maxQueueSize) (i : Bool) :
    Running k msgs db (raceStep msgs x i) := by
  rcases race_step_eq h hk hroom i with
    ⟨hi, he⟩ | ⟨hi, he⟩ | ⟨hi, he⟩ | ⟨ids, hi, he⟩ | ⟨hi, he⟩ <;> rw [he]
  · exact running_move hne h i .record x.db (by simp [hi]) (.inl rfl) rfl h.filed
      (fun _ hc => by cases hc) False.elim (fun _ _ => rfl) id
  · apply running_move hne h i .index (x.db.insertRecord (msgs i)) (by simp [hi])
      (.inr ⟨trivial,by simp⟩) rfl (filed_insert (msgs i) x.db h.filed) (fun _ hc => by cases hc)
    · intro _
      rw [SledDb.record_insert_record, if_pos rfl]
    · intro id hid
      rw [SledDb.record_insert_record, if_neg hid]
    · intro _
      rw [SledDb.record_insert_record, if_pos rfl]
  · exact running_move hne h i _ x.db (by simp [hi]) (.inr ⟨trivial,by simp⟩) rfl h.filed
      (fun _ hc => by cases hc; rfl) (fun _ => h.recorded i (by rw [hi]; trivial))
      (fun _ _ => rfl) id
  · exact running_write h i ids hi
  · exact h

omit h in
theorem listed_move (i : Bool) (db' : SledDb) (stage : Stage)
    (hids : db'.getOfflineMessageIds k = x.db.getOfflineMessageIds k)
    (hopen : x.tasks i ≠ .done) (hnot : stage ≠ .done) :
    Listed k msgs ⟨db',Function.update x.tasks i stage⟩ ↔ Listed k msgs x := by
  apply forall_congr'
  intro j
  dsimp only
  rw [hids, done_update x.tasks i j stage hopen hnot]

omit h in
theorem current_of_no_write (i : Bool) (hw : toWrite (x.tasks i) = none) : Current msgs x i := by
  intro ids hi
  rw [hw] at hi
  cases hi

theorem listed_write (i : Bool) (ids : List (BitVec 64)) (hi : x.tasks i = .write ids) :
    Listed k msgs ⟨x.db.insertIndex k ids,Function.update x.tasks i .done⟩ ↔
      Listed k msgs x ∧ Current msgs x i := by
  have hids : (x.db.insertIndex k ids).getOfflineMessageIds k = ids := by
    rw [SledDb.ids_insert_index, if_pos rfl]
  have hother : (!i) ≠ i := Bool.not_ne_self i
  constructor
  · intro hl
    constructor
    · intro j hj
      -- this call is not done, so the other one is the first and is listed
      have hji : j ≠ i := by
        rintro rfl
        rw [hi] at hj
        cases hj
      exact h.first j hj (by rw [Bool.not_eq.mpr hji, hi]; simp)
    · intro js hjs hdone
      rw [hi] at hjs
      obtain rfl := Option.mem_some_iff.mp hjs
      have hin := hl (!i) (by dsimp only; rw [Function.update_of_ne hother]; exact hdone)
      dsimp only at hin
      rwa [hids] at hin
  · rintro ⟨-, hc⟩ j hj
    dsimp only at hj ⊢
    rw [hids]
    by_cases hji : j = i
    · subst hji
      exact (h.read j ids hi).2.1
    · obtain rfl := Bool.eq_not.mpr hji
      rw [Function.update_of_ne hji] at hj
      exact hc ids (by rw [hi]; rfl) hj

theorem listed_step (hk : ∀ i, (msgs i).clientId = k)
    (hroom : db.getOfflineCount k+2 ≤ maxQueueSize) (i : Bool) :
    Listed k msgs (raceStep msgs x i) ↔ Listed k msgs x ∧ Current msgs x i := by
  rcases race_step_eq h hk hroom i with
    ⟨hi, he⟩ | ⟨hi, he⟩ | ⟨hi, he⟩ | ⟨ids, hi, he⟩ | ⟨hi, he⟩ <;> rw [he]
  · rw [listed_move i x.db _ rfl (by simp [hi]) (by simp),
      and_iff_left (current_of_no_write i (by rw [hi]; rfl))]
  · rw [listed_move i (x.db.insertRecord _) _ rfl (by simp [hi]) (by simp),
      and_iff_left (current_of_no_write i (by rw [hi]; rfl))]
  · rw [listed_move i x.db _ rfl (by simp [hi]) (by simp),
      and_iff_left (current_of_no_write i (by rw [hi]; rfl))]
  · exact listed_write h i ids hi
  · rw [and_iff_left (current_of_no_write i (by rw [hi]; rfl))]

end Steps

/-- After both calls are done, both messages and all that were queued before
are returned exactly when the ids were not in use by other messages and no
index was written without the id of a finished call. -/
theorem both_returned_iff (history : List OfflineEvent) (hk : ∀ i, (msgs i).clientId = k)
    (hne : (msgs true).id ≠ (msgs false).id)
    (hroom : (storeAfter history).getOfflineCount k+2 ≤ maxQueueSize) (schedule : List Bool)
    (hdone : ∀ i, (schedule.foldl (raceStep msgs) (race (storeAfter history))).tasks i = .done) :
    ((∀ m ∈ inQueue k (storeAfter history),
        Returned k m (schedule.foldl (raceStep msgs) (race (storeAfter history))).db) ∧
      ∀ i, Returned k (msgs i) (schedule.foldl (raceStep msgs) (race (storeAfter history))).db) ↔
    (∀ i, ∀ m ∈ inQueue k (storeAfter history), m.id = (msgs i).id → m = msgs i) ∧
      Along (raceStep msgs) (Current msgs) (race (storeAfter history)) schedule := by
  have hf := filed_after history
  have hstep : ∀ x i, Running k msgs (storeAfter history) x →
      Running k msgs (storeAfter history) (raceStep msgs x i) :=
    fun x i h => running_step hne h hk hroom i
  have hstart := running_race k msgs (storeAfter history) hf
  have hlast := always_last _ _ _ schedule
    (always_of_step (raceStep msgs) _ hstep _ schedule hstart)
  have hlisted := last_iff_along (raceStep msgs) (Current msgs) _ (Listed k msgs) hstep
    (fun x i h => listed_step h hk hroom i) _ schedule hstart
  have hnone : Listed k msgs (race (storeAfter history)) := fun i hi => by cases hi
  rw [and_iff_right hnone] at hlisted
  rw [← hlisted]
  revert hdone hlast
  generalize schedule.foldl (raceStep msgs) (race (storeAfter history)) = x
  intro hdone hlast
  have hrec : ∀ i, x.db.offlineQueue.lookup (msgs i).id = some (msgs i) :=
    fun i => hlast.recorded i (by rw [hdone i]; trivial)
  constructor
  · rintro ⟨hold, hnew⟩
    constructor
    · intro i m hm hid
      have hkept := (kept_of_returned k m x.db hlast.filed (hold m hm)).2
      rw [hid, hrec i] at hkept
      exact (Option.some.inj hkept).symm
    · intro i _
      exact (kept_of_returned k (msgs i) x.db hlast.filed (hnew i)).1
  · rintro ⟨hids, hl⟩
    constructor
    · intro m hm
      have hkept := (mem_in_queue_iff k m _ hf).mp hm
      exact returned_of_kept k m x.db ⟨hlast.before m.id hkept.1,
        hlast.others m hkept (fun i => hids i m hm)⟩
    · intro i
      exact returned_of_kept k (msgs i) x.db ⟨hl i (hdone i),hrec i⟩

end Runs

def twoMessages (i : Bool) : OfflineMessage := ⟨if i then 1 else 2,1,[97],[],0,0⟩

/-- The calls one after the other, on a queue with one message. -/
theorem calls_in_turn_returned :
    let x := (List.replicate 4 true++List.replicate 4 false).foldl (raceStep twoMessages)
      (race (storeAfter [.add ⟨7,1,[98],[],0,0⟩]))
    (∀ m ∈ inQueue 1 (storeAfter [.add ⟨7,1,[98],[],0,0⟩]), Returned 1 m x.db) ∧
      ∀ i, Returned 1 (twoMessages i) x.db := by
  refine (both_returned_iff 1 twoMessages [.add ⟨7,1,[98],[],0,0⟩] (by decide) (by decide)
    (by decide +kernel) (List.replicate 4 true++List.replicate 4 false)
    (by decide +kernel)).mpr ⟨by decide +kernel,?_⟩
  refine ⟨?_,?_,?_,?_,?_,?_,?_,?_,trivial⟩
  all_goals
    unfold Current
    decide +kernel

/-- Both calls read the index before either writes it. -/
theorem concurrent_message_lost :
    let x := [true, true, true, false, false, false, true, false].foldl (raceStep twoMessages)
      (race (storeAfter []))
    (∀ i, x.tasks i = .done) ∧ x.db.getOfflineMessages 0 1 = [twoMessages false] ∧
      ¬ Returned 1 (twoMessages true) x.db := by
  refine ⟨by decide +kernel,by decide +kernel,fun h => ?_⟩
  have hm := h 0 (by decide +kernel)
  revert hm
  decide +kernel

end RexMq.OfflineRace

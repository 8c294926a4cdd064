import DebugAgent.Proofs.Gone
import DebugAgent.Proofs.Suspending
import DebugAgent.Proofs.Tables

/-!
# All threads stopped and resumed

To stop all threads and to resume them always succeeds, whatever comes of the single threads, and
changes nothing but their states.  Each command is one change made to the threads of the machine at
once: the references that it takes are given back, so that only their numbers are used up.  From the
two changes it follows that a machine whose threads all run is what it was before, once they have been
stopped and resumed.
-/

namespace DebugAgent

open DebugAgent.Action Command

variable {a : Agent}

/-! ### Bits of a state -/

/-- Bits that are not set need not be cleared. -/
theorem and_not_of_hasAny {mask flags : Int32} (hnone : hasAny mask flags = false) :
    mask &&& ~~~flags = mask := by
  have hzero : mask &&& flags = 0 := by simpa [hasAny] using hnone
  apply Int32.toBitVec_inj.mp
  ext i hi
  have hbit := congrArg (fun m : Int32 => m.toBitVec[i]) hzero
  simp at hbit ⊢
  exact hbit

/-- Bits that are set and cleared again are as they were if they were not set. -/
theorem or_and_not_of_hasAny {mask flags : Int32} (hnone : hasAny mask flags = false) :
    (mask ||| flags) &&& ~~~flags = mask := by
  have hcleared : flags &&& ~~~flags = 0 := by simp
  rw [mask_or_and, hcleared, Int32.or_zero, and_not_of_hasAny hnone]

namespace ThreadBody

variable {body : ThreadBody}

/-- The thread has not ended. -/
def isLive (body : ThreadBody) : Bool := !hasAny body.state ThreadState.terminated

/-- The thread is suspended. -/
def isSuspended (body : ThreadBody) : Bool := hasAny body.state ThreadState.suspended

/-- The thread after the machine has been asked to suspend it. -/
def askedToStop (body : ThreadBody) : ThreadBody :=
  if body.isLive && !body.isSuspended && body.suspendFailure.isNone then body.halted else body

/-- The thread after the machine has been asked to resume it. -/
def askedToGoOn (body : ThreadBody) : ThreadBody := if body.isLive then body.resumed else body

theorem resumed_of_not_suspended (hruns : body.isSuspended = false) : body.resumed = body := by
  rw [resumed, and_not_of_hasAny hruns]

theorem isLive_halted (body : ThreadBody) : body.halted.isLive = body.isLive := by
  have hother : hasAny ThreadState.suspended ThreadState.terminated = false := by decide
  rw [isLive, isLive, halted, hasAny_or, hother, Bool.or_false]

theorem resumed_halted (hruns : body.isSuspended = false) : body.halted.resumed = body := by
  rw [resumed, halted]
  dsimp only
  rw [or_and_not_of_hasAny hruns]

/-- A thread that does not stand still when it is asked to stop goes on as before. -/
theorem askedToGoOn_of_runs (hruns : body.isLive → body.isSuspended = false) :
    body.askedToGoOn = body := by
  rw [askedToGoOn]
  split
  · rename_i hlive
    exact resumed_of_not_suspended (hruns hlive)
  · rfl

theorem askedToGoOn_askedToStop (hruns : body.isLive → body.isSuspended = false) :
    body.askedToStop.askedToGoOn = body := by
  by_cases hstops : body.isLive && !body.isSuspended && body.suspendFailure.isNone
  · have hlive : body.isLive := by simp_all
    rw [askedToStop, if_pos hstops, askedToGoOn, isLive_halted, if_pos hlive,
      resumed_halted (hruns hlive)]
  · rw [askedToStop, if_neg hstops, askedToGoOn_of_runs hruns]

end ThreadBody

/-! ### All threads at once -/

/-- What an object is after it has been changed as a thread, if it is one. -/
def HeapObject.changeThread (f : ThreadBody → ThreadBody) (object : HeapObject) : HeapObject :=
  match object.body with
  | .thread body => { object with body := .thread (f body) }
  | _ => object

theorem HeapObject.thread?_changeThread (f : ThreadBody → ThreadBody) (object : HeapObject) :
    (object.changeThread f).thread? = object.thread?.map f := by
  obtain ⟨cls, tag, body⟩ := object
  cases body <;> rfl

theorem HeapObject.changeThread_congr {f g : ThreadBody → ThreadBody} {object : HeapObject}
    (hsame : ∀ body, object.thread? = some body → f body = g body) :
    object.changeThread f = object.changeThread g := by
  obtain ⟨cls, tag, held⟩ := object
  cases held with
  | thread body => simp [changeThread, hsame body rfl]
  | _ => rfl

theorem HeapObject.changeThread_id : changeThread id = id := by
  funext object
  obtain ⟨cls, tag, body⟩ := object
  cases body <;> rfl

theorem HeapObject.changeThread_changeThread (f g : ThreadBody → ThreadBody) (object : HeapObject) :
    (object.changeThread f).changeThread g = object.changeThread (g ∘ f) := by
  obtain ⟨cls, tag, body⟩ := object
  cases body <;> rfl

namespace Vm

/-- The machine after its threads have been changed, each in its own way. -/
def changeThreads (f : HeapId → ThreadBody → ThreadBody) (vm : Vm) : Vm :=
  { vm with heap := vm.heap.mapIdx fun id object => object.changeThread (f id) }

variable {vm : Vm} {f g : HeapId → ThreadBody → ThreadBody} {thread : HeapId} {body : ThreadBody}

theorem heap_changeThreads (f : HeapId → ThreadBody → ThreadBody) (vm : Vm) (id : HeapId) :
    (vm.changeThreads f).heap[id]? = vm.heap[id]?.map (HeapObject.changeThread (f id)) :=
  Array.getElem?_mapIdx

theorem threadAt?_changeThreads (f : HeapId → ThreadBody → ThreadBody) (vm : Vm) (id : HeapId) :
    (vm.changeThreads f).threadAt? id = (vm.threadAt? id).map (f id) := by
  rw [threadAt?_eq, threadAt?_eq, heap_changeThreads]
  cases vm.heap[id]? with
  | none => rfl
  | some object => exact object.thread?_changeThread (f id)

/-- A machine is one with its threads changed if it is the same but for the heap, and object by
object. -/
theorem eq_changeThreads {later : Vm} (hrest : later = { vm with heap := later.heap })
    (hheap : ∀ id, later.heap[id]? = vm.heap[id]?.map (HeapObject.changeThread (f id))) :
    later = vm.changeThreads f := by
  have hsame : later.heap = (vm.changeThreads f).heap :=
    Array.ext_getElem? fun id => (hheap id).trans (heap_changeThreads f vm id).symm
  rw [hrest, hsame]
  rfl

/-- Two changes are the same if they come to the same for each thread. -/
theorem changeThreads_congr
    (hsame : ∀ id body, vm.threadAt? id = some body → f id body = g id body) :
    vm.changeThreads f = vm.changeThreads g := by
  refine eq_changeThreads rfl fun id => ?_
  rw [heap_changeThreads]
  cases hobject : vm.heap[id]? with
  | none => rfl
  | some object =>
      refine congrArg some (HeapObject.changeThread_congr fun body hbody => hsame id body ?_)
      rw [threadAt?_eq, hobject]
      exact hbody

theorem changeThreads_eq_self
    (hsame : ∀ id body, vm.threadAt? id = some body → f id body = body) :
    vm.changeThreads f = vm := by
  rw [changeThreads_congr (g := fun _ => id) hsame]
  refine (eq_changeThreads rfl fun id => ?_).symm
  rw [HeapObject.changeThread_id, Option.map_id]
  rfl

/-- Two changes, one after the other, are one. -/
theorem changeThreads_changeThreads (f g : HeapId → ThreadBody → ThreadBody) (vm : Vm) :
    (vm.changeThreads f).changeThreads g = vm.changeThreads fun id => g id ∘ f id := by
  refine eq_changeThreads rfl fun id => ?_
  rw [heap_changeThreads, heap_changeThreads, Option.map_map]
  congr 1
  funext object
  exact object.changeThread_changeThread (f id) (g id)

/-! ### Asking for threads one after another -/

/-- The machine after the threads on a list have been changed. -/
def changeListed (threads : List HeapId) (f : ThreadBody → ThreadBody) (vm : Vm) : Vm :=
  vm.changeThreads fun id body => if id ∈ threads then f body else body

theorem changeListed_nil (f : ThreadBody → ThreadBody) (vm : Vm) : vm.changeListed [] f = vm :=
  changeThreads_eq_self fun _ _ _ => if_neg List.not_mem_nil

/-- To change one thread is to replace what the object holds. -/
theorem changeListed_singleton (hbody : vm.threadAt? thread = some body)
    (f : ThreadBody → ThreadBody) :
    vm.changeListed [thread] f = vm.setBody thread (.thread (f body)) := by
  refine (eq_changeThreads rfl fun id => ?_).symm
  rw [heap_setBody]
  by_cases hid : id = thread
  · subst hid
    rw [threadAt?_eq] at hbody
    obtain ⟨⟨cls, tag, held⟩, hobject, hheld⟩ := Option.bind_eq_some_iff.mp hbody
    cases held with
    | thread held =>
        cases hheld
        simp [hobject, HeapObject.changeThread]
    | _ => cases hheld
  · have hleft : (fun body => if id ∈ [thread] then f body else body) = fun body => body := by
      simp only [List.mem_singleton, if_neg hid]
    rw [if_neg (Ne.symm hid), hleft]
    exact (congrFun ((congrArg Option.map HeapObject.changeThread_id).trans Option.map_id) _).symm

theorem changeListed_of_same (hbody : vm.threadAt? thread = some body)
    {f : ThreadBody → ThreadBody} (hsame : f body = body) : vm.changeListed [thread] f = vm := by
  refine changeThreads_eq_self fun id held hheld => ?_
  by_cases hid : id = thread
  · subst hid
    cases hbody.symm.trans hheld
    simpa using hsame
  · simp [hid]

theorem changeListed_cons {threads : List HeapId} (hnew : thread ∉ threads)
    (f : ThreadBody → ThreadBody) (vm : Vm) :
    (vm.changeListed [thread] f).changeListed threads f = vm.changeListed (thread :: threads) f := by
  rw [changeListed, changeListed, changeThreads_changeThreads]
  refine changeThreads_congr fun id body _ => ?_
  by_cases hid : id = thread
  · simp [hid, hnew]
  · simp [hid]

theorem threadAt?_changeListed_of_ne {other : HeapId} (hother : other ≠ thread)
    (f : ThreadBody → ThreadBody) (vm : Vm) :
    (vm.changeListed [thread] f).threadAt? other = vm.threadAt? other := by
  rw [changeListed, threadAt?_changeThreads]
  simp [hother]

/-- The machine does with a thread as it is asked, whatever it tells of it. -/
def Obeys (one : Handle → Call Unit) (f : ThreadBody → ThreadBody) (vm : Vm) (h : Handle)
    (thread : HeapId) : Prop :=
  ∃ result, (one h).perform vm = (result, vm.changeListed [thread] f) ∧ result ≠ .error .broken

/-- Asked for one thread after another, the machine does as it is asked with all of them. -/
theorem perform_each {one : Handle → Call Unit} {f : ThreadBody → ThreadBody}
    {allowed : HeapId → Prop} {threads : List HeapId} {hs : List Handle}
    (hone : ∀ near : Vm, near.attached = vm.attached → ∀ h thread body, allowed thread →
      near.target? h = some thread → near.threadAt? thread = some body → near.Obeys one f h thread)
    (htargets : hs.map vm.target? = threads.map some)
    (hthreads : ∀ thread ∈ threads, allowed thread ∧ (vm.threadAt? thread).isSome)
    (hdistinct : threads.Nodup) :
    ∃ results, (hs.mapM fun h => (one h).attempt : Call _).perform vm =
      (.ok results, vm.changeListed threads f) := by
  induction hs generalizing vm threads with
  | nil =>
      obtain rfl : threads = [] := by simpa using htargets.symm
      exact ⟨[], by rw [changeListed_nil]; rfl⟩
  | cons h hs ih =>
      cases threads with
      | nil => simp at htargets
      | cons thread threads =>
          obtain ⟨htarget, hrest⟩ := List.cons.inj htargets
          obtain ⟨hnew, hdistinct⟩ := List.nodup_cons.mp hdistinct
          obtain ⟨⟨hallowed, hthread⟩, hothers⟩ := List.forall_mem_cons.mp hthreads
          obtain ⟨body, hbody⟩ := Option.isSome_iff_exists.mp hthread
          obtain ⟨result, hperform, hsound⟩ := hone vm rfl h thread body hallowed htarget hbody
          obtain ⟨outcome, hattempt⟩ : ∃ outcome, ((one h).attempt : Call _).perform vm =
              (.ok outcome, vm.changeListed [thread] f) := by
            rw [attempt, perform_of, hperform]
            rcases result with (cause | _) | value
            · exact ⟨_, rfl⟩
            · exact absurd rfl hsound
            · exact ⟨_, rfl⟩
          have hlater : ∀ other ∈ threads,
              allowed other ∧ ((vm.changeListed [thread] f).threadAt? other).isSome := by
            intro other hmem
            have hne : other ≠ thread := by
              rintro rfl
              exact hnew hmem
            rw [threadAt?_changeListed_of_ne hne]
            exact hothers other hmem
          obtain ⟨results, hresults⟩ : ∃ results,
              (hs.mapM fun h => (one h).attempt : Call _).perform (vm.changeListed [thread] f) =
                (.ok results, (vm.changeListed [thread] f).changeListed threads f) :=
            ih hone hrest hlater hdistinct
          refine ⟨outcome :: results, ?_⟩
          rw [List.mapM_cons, perform_bind, hattempt]
          dsimp only
          rw [perform_bind, hresults, changeListed_cons hnew]
          rfl

/-- A thread that is not the caller's own is suspended if it can be. -/
theorem obeys_suspendOne {caller : NativeThread} {own : HeapId} {h : Handle}
    (hown : vm.attached.get? caller = some own) (hother : thread ≠ own)
    (htarget : vm.target? h = some thread) (hbody : vm.threadAt? thread = some body) :
    vm.Obeys (suspendOne caller) ThreadBody.askedToStop h thread := by
  have hnoted : vm.noteOwn caller h = vm := by
    rw [noteOwn, hown]
    dsimp only
    rw [htarget, if_neg fun heq => hother (Option.some.inj heq)]
  rw [Obeys, suspendOne, perform_bind]
  change ∃ result, (locateThread h >>= _).perform (vm.noteOwn caller h) = (result, _) ∧ _
  rw [hnoted, perform_bind, perform_locateThread htarget hbody]
  dsimp only
  have hleft : body.askedToStop = body →
      vm.changeListed [thread] ThreadBody.askedToStop = vm := changeListed_of_same hbody
  cases hfailure : body.suspendFailure with
  | some failure =>
      rw [hleft (by simp [ThreadBody.askedToStop, hfailure])]
      exact ⟨_, rfl, by simp⟩
  | none =>
      dsimp only
      split
      · rename_i hended
        rw [hleft (by simp [ThreadBody.askedToStop, ThreadBody.isLive, hended])]
        exact ⟨_, rfl, by simp⟩
      · rename_i hlive
        split
        · rename_i hsuspended
          rw [hleft (by simp [ThreadBody.askedToStop, ThreadBody.isSuspended, hsuspended])]
          exact ⟨_, rfl, by simp⟩
        · rename_i hruns
          have hstops : body.askedToStop = body.halted := by
            simp [ThreadBody.askedToStop, ThreadBody.isLive, ThreadBody.isSuspended, hlive, hruns,
              hfailure]
          rw [changeListed_singleton hbody, hstops, ThreadBody.halted, hfailure]
          exact ⟨_, rfl, by simp⟩

/-- A thread goes on if it has not ended.  One that runs is left as it is. -/
theorem obeys_resumeOne {h : Handle} (htarget : vm.target? h = some thread)
    (hbody : vm.threadAt? thread = some body) :
    vm.Obeys resumeOne ThreadBody.askedToGoOn h thread := by
  rw [Obeys, resumeOne, perform_bind, perform_locateThread htarget hbody]
  dsimp only
  have hleft : body.askedToGoOn = body →
      vm.changeListed [thread] ThreadBody.askedToGoOn = vm := changeListed_of_same hbody
  split
  · rename_i hended
    rw [hleft (by simp [ThreadBody.askedToGoOn, ThreadBody.isLive, hended])]
    exact ⟨_, rfl, by simp⟩
  · rename_i hlive
    split
    · rename_i hruns
      rw [hleft (ThreadBody.askedToGoOn_of_runs fun _ => by simpa [ThreadBody.isSuspended] using hruns)]
      exact ⟨_, rfl, by simp⟩
    · have hgoes : body.askedToGoOn = body.resumed := by
        simp [ThreadBody.askedToGoOn, ThreadBody.isLive, hlive]
      rw [changeListed_singleton hbody, hgoes]
      exact ⟨_, rfl, by simp⟩

/-! ### References to all of them -/

/-- The references to a list of objects are to these objects. -/
theorem map_target?_newLocals (hb : vm.RefsBounded) (ids : List HeapId) :
    (vm.newLocals ids).1.map (vm.newLocals ids).2.target? = ids.map some := by
  induction ids generalizing vm with
  | nil => rfl
  | cons id ids ih =>
      have hbounded : (vm.newLocal id).2.RefsBounded := (ages_newRef vm .localRef id).bounded hb
      have hfirst : (newLocals ids (vm.newLocal id).2).2.target? (vm.newLocal id).1 = some id :=
        target?_newLocals_of_some hbounded (target?_newRef vm .localRef id) ids
      exact congrArg₂ List.cons hfirst (ih hbounded)

/-- The numbers of new references depend on the newest one alone. -/
theorem newLocals_fst_congr {vm' : Vm} (hlast : vm'.lastRef = vm.lastRef) (ids : List HeapId) :
    (vm'.newLocals ids).1 = (vm.newLocals ids).1 := by
  induction ids generalizing vm vm' with
  | nil => rfl
  | cons id ids ih =>
      have hraw : (vm'.newLocal id).1 = (vm.newLocal id).1 := congrArg (Handle.mk <| · + 8) hlast
      exact congrArg₂ List.cons hraw (ih (congrArg (· + 8) hlast))

/-- It makes no difference whether a reference is given back before or after another is taken. -/
theorem dropLocal_newLocal_of_le {h : Handle} (hb : vm.RefsBounded) (hold : h.raw ≤ vm.lastRef)
    (id : HeapId) : dropLocal (vm.newLocal id).2 h = ((dropLocal vm h).newLocal id).2 := by
  have hne : h.raw ≠ vm.lastRef + 8 := by omega
  have hfree : vm.refs.get? (vm.lastRef + 8) = none := hb.get?_next
  have hsame : (vm.newLocal id).2.refs.get? h.raw = vm.refs.get? h.raw := Table.get?_insert_of_ne hne
  rw [dropLocal, dropLocal]
  split
  · rfl
  rw [deleteLocalRef, deleteLocalRef, deleteRef, deleteRef, hsame]
  split
  · split
    · rw [newLocal, newRef, newLocal, newRef]
      dsimp only
      rw [Table.erase_insert_of_ne hfree hne]
    · rfl
  · rfl

theorem dropLocal_newLocals {h : Handle} (hb : vm.RefsBounded) (hold : h.raw ≤ vm.lastRef)
    (ids : List HeapId) : dropLocal (vm.newLocals ids).2 h = ((dropLocal vm h).newLocals ids).2 := by
  induction ids generalizing vm with
  | nil => rfl
  | cons id ids ih =>
      have hbounded : (vm.newLocal id).2.RefsBounded := (ages_newRef vm .localRef id).bounded hb
      refine (ih hbounded (Nat.le_trans hold (Nat.le_add_right _ 8))).trans ?_
      rw [dropLocal_newLocal_of_le hb hold]
      rfl

/-- References that are given back leave their numbers used up. -/
theorem dropLocals_newLocals (hb : vm.RefsBounded) (ids : List HeapId) :
    (vm.newLocals ids).1.foldl dropLocal (vm.newLocals ids).2 = vm.spend (8 * ids.length) := by
  induction ids generalizing vm with
  | nil => rfl
  | cons id ids ih =>
      have hbounded : (vm.newLocal id).2.RefsBounded := (ages_newRef vm .localRef id).bounded hb
      have hfirst : dropLocal (newLocals ids (vm.newLocal id).2).2 (vm.newLocal id).1 =
          (newLocals ids (vm.spend 8)).2 := by
        have hold : (vm.newLocal id).1.raw ≤ (vm.newLocal id).2.lastRef := Nat.le_refl _
        rw [dropLocal_newLocals hbounded hold, dropLocal_newLocal_self hb]
      have hlast : (vm.newLocal id).2.lastRef = (vm.spend 8).lastRef := rfl
      have hnames : (newLocals ids (vm.newLocal id).2).1 = (newLocals ids (vm.spend 8)).1 :=
        newLocals_fst_congr hlast ids
      calc
        _ = (newLocals ids (vm.newLocal id).2).1.foldl dropLocal
              (dropLocal (newLocals ids (vm.newLocal id).2).2 (vm.newLocal id).1) := rfl
        _ = (vm.spend 8).spend (8 * ids.length) := by
          rw [hfirst, hnames, ih (bounded_spend hb 8)]
        _ = vm.spend (8 * (id :: ids).length) := by
          simp [spend, Nat.mul_add, Nat.add_assoc, Nat.add_comm]

theorem deleteRef_changeThreads (f : HeapId → ThreadBody → ThreadBody) (kind : RefKind) (h : Handle)
    (vm : Vm) : (vm.changeThreads f).deleteRef kind h = (vm.deleteRef kind h).changeThreads f := by
  have hrefs : (vm.changeThreads f).refs = vm.refs := rfl
  rw [deleteRef, deleteRef, hrefs]
  cases vm.refs.get? h.raw with
  | none => rfl
  | some ref =>
      dsimp only
      split <;> rfl

/-- Giving a reference back has nothing to do with the threads. -/
theorem dropLocal_changeThreads (f : HeapId → ThreadBody → ThreadBody) (vm : Vm) (h : Handle) :
    dropLocal (vm.changeThreads f) h = (dropLocal vm h).changeThreads f := by
  rw [dropLocal, dropLocal]
  split
  · rfl
  · exact deleteRef_changeThreads f .localRef h vm

theorem dropLocals_changeThreads (f : HeapId → ThreadBody → ThreadBody) (hs : List Handle) (vm : Vm) :
    hs.foldl dropLocal (vm.changeThreads f) = (hs.foldl dropLocal vm).changeThreads f := by
  induction hs generalizing vm with
  | nil => rfl
  | cons h hs ih => rw [List.foldl_cons, dropLocal_changeThreads, ih, List.foldl_cons]

theorem liveThreadIds_congr {vm' : Vm} (hheap : vm'.heap = vm.heap) :
    vm'.liveThreadIds = vm.liveThreadIds := by
  have hthread : vm'.threadAt? = vm.threadAt? := funext (threadAt?_congr hheap)
  rw [liveThreadIds, liveThreadIds, hthread, hheap]

theorem nodup_liveThreadIds (vm : Vm) : vm.liveThreadIds.Nodup :=
  List.nodup_range.filter _

end Vm

/-! ### The commands -/

namespace Agent

/-- The agent with the threads of its machine changed, each in its own way. -/
def changeThreads (f : HeapId → ThreadBody → ThreadBody) (a : Agent) : Agent :=
  a.setVm (a.vm.changeThreads f)

end Agent

namespace Suspension

/-- A list of threads is gone through with references to all that have not ended. -/
theorem perform_listed (hb : a.vm.RefsBounded) {x : List Handle → Command Unit}
    {f : HeapId → ThreadBody → ThreadBody}
    (hx : let listed := a.vm.newLocals a.vm.liveThreadIds
      (x listed.1).perform (a.setVm listed.2) = (.ok (), (a.setVm listed.2).changeThreads f)) :
    (call Vm.allThreads >>= fun threads => withLocals threads (x threads)).perform a =
      (.ok (), (a.spend (8 * a.vm.liveThreadIds.length)).changeThreads f) := by
  let listed := a.vm.newLocals a.vm.liveThreadIds
  have hall : (call Vm.allThreads).perform a = (.ok listed.1, a.setVm listed.2) :=
    perform_call_ok rfl
  have hdropped : listed.1.foldl dropLocal (listed.2.changeThreads f) =
      (a.vm.spend (8 * a.vm.liveThreadIds.length)).changeThreads f := by
    rw [Vm.dropLocals_changeThreads, Vm.dropLocals_newLocals hb]
  rw [perform_bind, hall]
  dsimp only
  rw [perform_withLocals, hx]
  exact Prod.ext rfl (congrArg a.setVm hdropped)

/-- To change the threads on a list is to change all, if the change makes no difference to others. -/
theorem changeListed_eq {vm : Vm} {threads : List HeapId} {f : ThreadBody → ThreadBody}
    {g : HeapId → ThreadBody → ThreadBody} (hlisted : ∀ id ∈ threads, g id = f)
    (hothers : ∀ id body, id ∉ threads → vm.threadAt? id = some body → g id body = body) :
    vm.changeListed threads f = vm.changeThreads g := by
  refine Vm.changeThreads_congr fun id body hbody => ?_
  split
  · rename_i hmem
    rw [hlisted id hmem]
  · rename_i hnot
    exact (hothers id body hnot hbody).symm

theorem not_isLive_of_not_mem {vm : Vm} {thread : HeapId} {body : ThreadBody}
    (hnot : thread ∉ vm.liveThreadIds) (hbody : vm.threadAt? thread = some body) :
    body.isLive = false := by
  rw [Vm.mem_liveThreadIds, Vm.isLiveThread, hbody] at hnot
  simpa [ThreadBody.isLive] using hnot

theorem map_target?_others {vm : Vm} {current : Handle} {own : HeapId}
    (hcurrent : vm.target? current = some own) (threads : List Handle) :
    (others vm current threads).map vm.target? =
      (threads.map vm.target?).filter fun target => target ≠ some own := by
  have hvalid := Vm.isNull_eq_false_of_target hcurrent
  rw [List.filter_map, others]
  refine congrArg (List.map vm.target?) (List.filter_congr fun h _ => ?_)
  simp [hvalid, Vm.isSameObject, hcurrent]

/-- All threads that are listed are asked to stop, but for the current one. -/
theorem perform_suspendListed_eq (hb : a.vm.RefsBounded)
    (hgrant : a.vm.grants Capabilities.canSuspend) {caller : NativeThread} {own : HeapId}
    {current : Handle} (hown : a.vm.attached.get? caller = some own)
    (hcurrent : a.vm.target? current = some own) :
    (suspendListed caller current).perform a =
      (.ok (), (a.spend (8 * a.vm.liveThreadIds.length)).changeThreads fun id body =>
        if id = own then body else body.askedToStop) := by
  refine perform_listed hb ?_
  intro listed
  obtain ⟨hheap, hcapabilities, hattached⟩ :=
    Vm.leaves_of_glances (Vm.glance_newLocals a.vm.liveThreadIds a.vm)
  let targets := others listed.2 current listed.1
  let stopped := a.vm.liveThreadIds.filter fun id => id ≠ own
  have hcurrent' : listed.2.target? current = some own :=
    Vm.target?_newLocals_of_some hb hcurrent _
  have htargets : targets.map listed.2.target? = stopped.map some := by
    rw [map_target?_others hcurrent', Vm.map_target?_newLocals hb, List.filter_map]
    refine congrArg (List.map some) (List.filter_congr fun id _ => ?_)
    simp
  have hthreads : ∀ thread ∈ stopped, thread ≠ own ∧ (listed.2.threadAt? thread).isSome := by
    intro thread hmem
    obtain ⟨hlisted, hother⟩ := List.mem_filter.mp hmem
    refine ⟨by simpa using hother, ?_⟩
    rw [Vm.threadAt?_congr hheap]
    exact Option.isSome_of_any (Vm.mem_liveThreadIds.mp hlisted)
  have hone : ∀ near : Vm, near.attached = listed.2.attached → ∀ h thread body, thread ≠ own →
      near.target? h = some thread → near.threadAt? thread = some body →
        near.Obeys (Vm.suspendOne caller) ThreadBody.askedToStop h thread := by
    intro near hnear h thread body hother htarget hbody
    exact Vm.obeys_suspendOne (hnear ▸ hattached ▸ hown) hother htarget hbody
  obtain ⟨results, hresults⟩ := Vm.perform_each hone htargets hthreads
    ((Vm.nodup_liveThreadIds a.vm).filter _)
  have hgrant' : listed.2.grants Capabilities.canSuspend := by
    rwa [Vm.grants, hcapabilities, ← Vm.grants]
  have hcall : (Vm.suspendThreads caller targets).perform listed.2 =
      (.ok results, listed.2.changeListed stopped ThreadBody.askedToStop) := by
    rw [Vm.suspendThreads, perform_bind, perform_inspect, Vm.demand_ok hgrant']
    exact hresults
  have hall : listed.2.changeListed stopped ThreadBody.askedToStop =
      listed.2.changeThreads fun id body => if id = own then body else body.askedToStop := by
    refine changeListed_eq (fun id hmem => ?_) fun id body hnot hbody => ?_
    · funext body
      exact if_neg (hthreads id hmem).1
    · split
      · rfl
      · rename_i hother
        have hunlisted : id ∉ a.vm.liveThreadIds := fun hmem =>
          hnot (List.mem_filter.mpr ⟨hmem, by simpa using hother⟩)
        rw [Vm.threadAt?_congr hheap] at hbody
        simp [ThreadBody.askedToStop, not_isLive_of_not_mem hunlisted hbody]
  rw [perform_bind, see, perform_look]
  dsimp only
  rw [perform_bind, perform_call_ok hcall, hall]
  rfl

/-- To stop all threads is to ask each but the caller's own, with one more reference to that. -/
theorem perform_suspendAll (hb : a.vm.RefsBounded) (hgrant : a.vm.grants Capabilities.canSuspend)
    {caller : NativeThread} {own : HeapId} (hown : a.vm.attached.get? caller = some own) :
    (suspendAll caller).perform a =
      (.ok (), (a.spend (8 * (a.vm.liveThreadIds.length + 1))).changeThreads fun id body =>
        if id = own then body else body.askedToStop) := by
  let entered := a.setVm (a.vm.newLocal own).2
  have hcurrent : (Vm.currentThread caller).perform a.vm =
      (.ok (a.vm.newLocal own).1, (a.vm.newLocal own).2) := by
    simp [Vm.currentThread, perform_bind, hown]
  have hbounded : entered.vm.RefsBounded := (Vm.ages_newRef a.vm .localRef own).bounded hb
  have hlisted : (suspendListed caller (a.vm.newLocal own).1).perform entered =
      (.ok (), (entered.spend (8 * entered.vm.liveThreadIds.length)).changeThreads fun id body =>
        if id = own then body else body.askedToStop) :=
    perform_suspendListed_eq hbounded hgrant hown (Vm.target?_newRef a.vm .localRef own)
  have hwithin : (withLocal (a.vm.newLocal own).1
      (suspendListed caller (a.vm.newLocal own).1)).perform entered =
        (.ok (), (a.spend (8 * (a.vm.liveThreadIds.length + 1))).changeThreads fun id body =>
          if id = own then body else body.askedToStop) := by
    rw [perform_withLocal, hlisted]
    refine Prod.ext rfl (congrArg a.setVm ?_)
    have hlength : entered.vm.liveThreadIds = a.vm.liveThreadIds := Vm.liveThreadIds_congr rfl
    have hspent := Vm.dropLocal_newLocal_spent hb own (8 * a.vm.liveThreadIds.length)
    rw [hlength, Nat.mul_add, Nat.mul_one, Nat.add_comm]
    exact (Vm.dropLocal_changeThreads _ _ _).trans (congrArg (Vm.changeThreads _) hspent)
  rw [suspendAll, perform_bind, perform_tryCall_ok hcurrent]
  exact hwithin

/-- To resume all threads is to ask each of them. -/
theorem perform_resumeAll (hb : a.vm.RefsBounded) (hgrant : a.vm.grants Capabilities.canSuspend) :
    resumeAll.perform a =
      (.ok (), (a.spend (8 * a.vm.liveThreadIds.length)).changeThreads fun _ =>
        ThreadBody.askedToGoOn) := by
  refine perform_listed hb ?_
  intro listed
  obtain ⟨hheap, hcapabilities, -⟩ :=
    Vm.leaves_of_glances (Vm.glance_newLocals a.vm.liveThreadIds a.vm)
  have hthreads : ∀ thread ∈ a.vm.liveThreadIds,
      True ∧ (listed.2.threadAt? thread).isSome := by
    intro thread hmem
    rw [Vm.threadAt?_congr hheap]
    exact ⟨trivial, Option.isSome_of_any (Vm.mem_liveThreadIds.mp hmem)⟩
  obtain ⟨results, hresults⟩ := Vm.perform_each
    (fun _ _ _ _ _ _ => Vm.obeys_resumeOne) (Vm.map_target?_newLocals hb a.vm.liveThreadIds)
    hthreads (Vm.nodup_liveThreadIds a.vm)
  have hgrant' : listed.2.grants Capabilities.canSuspend := by
    rwa [Vm.grants, hcapabilities, ← Vm.grants]
  have hcall : (Vm.resumeThreads listed.1).perform listed.2 =
      (.ok results, listed.2.changeListed a.vm.liveThreadIds ThreadBody.askedToGoOn) := by
    rw [Vm.resumeThreads, perform_bind, perform_inspect, Vm.demand_ok hgrant']
    exact hresults
  have hall : listed.2.changeListed a.vm.liveThreadIds ThreadBody.askedToGoOn =
      listed.2.changeThreads fun _ => ThreadBody.askedToGoOn := by
    refine changeListed_eq (fun _ _ => rfl) fun id body hnot hbody => ?_
    rw [Vm.threadAt?_congr hheap] at hbody
    simp [ThreadBody.askedToGoOn, not_isLive_of_not_mem hnot hbody]
  rw [perform_bind, perform_call_ok hcall, hall]
  rfl

end Suspension

theorem grants_attached {capability : Capabilities → Bool} (hgrant : a.vm.grants capability)
    (caller : NativeThread) : (a.setVm (a.vm.attach caller).2).vm.grants capability :=
  (grants_attach a.vm caller capability).trans hgrant

/-- All threads are stopped for a native thread that can be attached, but for its own. -/
theorem serve_suspend (hb : a.vm.RefsBounded) (hgrant : a.vm.grants Capabilities.canSuspend)
    (hattaches : a.vm.attachFails = false) (caller : NativeThread) :
    let near := a.setVm (a.vm.attach caller).2
    Agent.serve caller .suspend a =
      (.ok .done, (near.spend (8 * (near.vm.liveThreadIds.length + 1))).changeThreads fun id body =>
        if id = (a.vm.attach caller).1 then body else body.askedToStop) := by
  intro near
  have hbounded : near.vm.RefsBounded := Vm.bounded_attach hb caller
  have hsuspends := Suspension.perform_suspendAll hbounded (grants_attached hgrant caller)
    (Vm.attached_attach a.vm caller)
  change answer caller (done (Suspension.suspendAll caller)) a = _
  rw [answer_of_attaching hattaches, done, perform_bind_of_ok hsuspends]
  rfl

/-- All threads are resumed for a native thread that can be attached. -/
theorem serve_resume (hb : a.vm.RefsBounded) (hgrant : a.vm.grants Capabilities.canSuspend)
    (hattaches : a.vm.attachFails = false) (caller : NativeThread) :
    let near := a.setVm (a.vm.attach caller).2
    Agent.serve caller .resume a =
      (.ok .done, (near.spend (8 * near.vm.liveThreadIds.length)).changeThreads fun _ =>
        ThreadBody.askedToGoOn) := by
  intro near
  have hbounded : near.vm.RefsBounded := Vm.bounded_attach hb caller
  have hresumes := Suspension.perform_resumeAll hbounded (grants_attached hgrant caller)
  change answer caller (done Suspension.resumeAll) a = _
  rw [answer_of_attaching hattaches, done, perform_bind_of_ok hresumes]
  rfl

/-! ### The outcome -/

/-- Where suspension is granted and native threads can be attached, stopping all threads succeeds.
It suspends each thread that has not ended, is not the caller's own, runs and can be suspended, and
changes nothing else.  Resuming all threads succeeds, makes each thread go on that has not ended, and
changes nothing else.  Apart from the numbers of references that are used up on the way, this is all
that happens to an agent whose caller is attached.  So the one after the other leaves every thread as
it was, if none that has not ended was suspended before. -/
theorem all_stopped_and_resumed (past : Past)
    (hgrant : past.agent.vm.grants Capabilities.canSuspend)
    (hattaches : past.agent.vm.attachFails = false) (caller other : NativeThread) :
    let a := past.agent
    let near := a.setVm (a.vm.attach caller).2
    let own := (a.vm.attach caller).1
    let stopped := Agent.serve caller .suspend a
    let resumed := Agent.serve caller .resume a
    let restored := Agent.serve other .resume stopped.2
    stopped.1 = .ok .done ∧
    (∃ used, stopped.2 = (near.spend used).changeThreads fun id body =>
      if id = own then body else body.askedToStop) ∧
    (∀ thread body, a.vm.threadAt? thread = some body →
      stopped.2.vm.threadAt? thread = some
        (if thread ≠ own ∧ hasAny body.state ThreadState.terminated = false ∧
            hasAny body.state ThreadState.suspended = false ∧ body.suspendFailure = none then
          { body with state := body.state ||| ThreadState.suspended }
        else body)) ∧
    resumed.1 = .ok .done ∧
    (∃ used, resumed.2 = (near.spend used).changeThreads fun _ => ThreadBody.askedToGoOn) ∧
    (∀ thread body, a.vm.threadAt? thread = some body →
      resumed.2.vm.threadAt? thread = some
        (if hasAny body.state ThreadState.terminated = false then
          { body with state := body.state &&& ~~~ThreadState.suspended }
        else body)) ∧
    ((∀ thread body, a.vm.threadAt? thread = some body →
        hasAny body.state ThreadState.terminated = false →
          hasAny body.state ThreadState.suspended = false) →
      restored.1 = .ok .done ∧
      ∀ thread body, a.vm.threadAt? thread = some body →
        restored.2.vm.threadAt? thread = some body) := by
  intro a near own stopped resumed restored
  have hb : a.vm.RefsBounded := past.inOrder.refs
  have hbounded : near.vm.RefsBounded := Vm.bounded_attach hb caller
  have hstop := serve_suspend hb hgrant hattaches caller
  have hresume := serve_resume hb hgrant hattaches caller
  have hstopped : ∀ thread body, a.vm.threadAt? thread = some body →
      stopped.2.vm.threadAt? thread =
        some (if thread = own then body else body.askedToStop) := by
    intro thread body hbody
    have hnear : near.vm.threadAt? thread = some body := threadAt?_attach hbody caller
    refine (congrArg (fun outcome => outcome.2.vm.threadAt? thread) hstop).trans ?_
    refine (Vm.threadAt?_changeThreads _ _ thread).trans ?_
    exact congrArg (Option.map _) hnear
  refine ⟨congrArg Prod.fst hstop, ⟨_, congrArg Prod.snd hstop⟩, fun thread body hbody => ?_,
    congrArg Prod.fst hresume, ⟨_, congrArg Prod.snd hresume⟩, fun thread body hbody => ?_,
    fun hruns => ?_⟩
  · rw [hstopped thread body hbody]
    by_cases hown : thread = own
    · simp [hown]
    · simp [hown, ThreadBody.askedToStop, ThreadBody.isLive, ThreadBody.isSuspended,
        ThreadBody.halted, and_assoc]
  · have hnear : near.vm.threadAt? thread = some body := threadAt?_attach hbody caller
    refine (congrArg (fun outcome => outcome.2.vm.threadAt? thread) hresume).trans ?_
    refine (Vm.threadAt?_changeThreads _ _ thread).trans ?_
    refine (congrArg (Option.map _) hnear).trans (congrArg some ?_)
    simp [ThreadBody.askedToGoOn, ThreadBody.isLive, ThreadBody.resumed]
  · have hgrant' : stopped.2.vm.grants Capabilities.canSuspend := by
      rw [show stopped.2 = _ from congrArg Prod.snd hstop]
      exact grants_attached hgrant caller
    have hattaches' : stopped.2.vm.attachFails = false := by
      rw [show stopped.2 = _ from congrArg Prod.snd hstop]
      exact (attachFails_attach a.vm caller).trans hattaches
    have hbounded' : stopped.2.vm.RefsBounded := by
      rw [show stopped.2 = _ from congrArg Prod.snd hstop]
      exact Vm.bounded_spend hbounded _
    have hrestore := serve_resume hbounded' hgrant' hattaches' other
    refine ⟨congrArg Prod.fst hrestore, fun thread body hbody => ?_⟩
    have hrunning : body.isLive → body.isSuspended = false := by
      simpa [ThreadBody.isLive, ThreadBody.isSuspended] using hruns thread body hbody
    have hlater := threadAt?_attach (hstopped thread body hbody) other
    refine (congrArg (fun outcome => outcome.2.vm.threadAt? thread) hrestore).trans ?_
    refine (Vm.threadAt?_changeThreads _ _ thread).trans ?_
    refine (congrArg (Option.map _) hlater).trans (congrArg some ?_)
    split
    · exact ThreadBody.askedToGoOn_of_runs hrunning
    · exact ThreadBody.askedToGoOn_askedToStop hrunning

/-- A machine with a thread that runs, one that cannot be suspended and one that had been suspended
when it ended, and an agent whose client has a session open. -/
def mixedThreads : Past :=
  ⟨[.spawnThread "worker", .spawnThread "stubborn", .spawnThread "gone", .failSuspend 10 .internal,
      .setThreadState 11 (ThreadState.terminated ||| ThreadState.suspended)],
    {}, [.op (.attach (.client 0) true)]⟩

theorem isSuspended_of_mixedThreads {thread : HeapId} {body : ThreadBody}
    (hbody : mixedThreads.agent.vm.threadAt? thread = some body)
    (hlive : hasAny body.state ThreadState.terminated = false) :
    hasAny body.state ThreadState.suspended = false := by
  have hall : ∀ thread < mixedThreads.agent.vm.heap.size,
      (mixedThreads.agent.vm.threadAt? thread).all (fun body =>
        hasAny body.state ThreadState.terminated ||
          !hasAny body.state ThreadState.suspended) = true := by
    decide +kernel
  have hsize : thread < mixedThreads.agent.vm.heap.size := by
    rw [Vm.threadAt?_eq] at hbody
    obtain ⟨object, hobject, -⟩ := Option.bind_eq_some_iff.mp hbody
    exact (Array.getElem?_eq_some_iff.mp hobject).1
  have hthread := hall thread hsize
  rw [hbody] at hthread
  simpa [hlive] using hthread

/-- The client stops the thread that runs, and neither the others nor its own.  When another client
resumes all threads, each of them is as it was. -/
theorem mixed_threads_restored :
    mixedThreads.agent.vm.grants Capabilities.canSuspend ∧
    mixedThreads.agent.vm.attachFails = false ∧
    let a := mixedThreads.agent
    let stopped := Agent.serve (.client 0) .suspend a
    let restored := Agent.serve (.client 1) .resume stopped.2
    stopped.1 = .ok .done ∧
    (stopped.2.vm.threadAt? 9).map ThreadBody.state =
      some (ThreadState.started ||| ThreadState.suspended) ∧
    (stopped.2.vm.threadAt? 10).map ThreadBody.state = some ThreadState.started ∧
    (stopped.2.vm.threadAt? 11).map ThreadBody.state =
      some (ThreadState.terminated ||| ThreadState.suspended) ∧
    (stopped.2.vm.threadAt? 12).map ThreadBody.state = some ThreadState.started ∧
    restored.1 = .ok .done ∧
    ∀ thread body, a.vm.threadAt? thread = some body →
      restored.2.vm.threadAt? thread = some body := by
  have hgrant : mixedThreads.agent.vm.grants Capabilities.canSuspend := by decide +kernel
  have hattaches : mixedThreads.agent.vm.attachFails = false := by decide +kernel
  have hown : (mixedThreads.agent.vm.attach (.client 0)).1 = 12 := by decide +kernel
  have hshown : [9, 10, 11, 12].map (fun thread =>
      (mixedThreads.agent.vm.threadAt? thread).map fun body => (body.state, body.suspendFailure)) =
        [some (ThreadState.started, none), some (ThreadState.started, some .internal),
          some (ThreadState.terminated ||| ThreadState.suspended, none),
          some (ThreadState.started, none)] := by
    decide +kernel
  simp only [List.map_cons, List.map_nil, List.cons.injEq, Option.map_eq_some_iff, Prod.mk.injEq,
    and_true] at hshown
  obtain ⟨⟨worker, hworker, hstate, hfailure⟩, ⟨stubborn, hstubborn, hstate', hfailure'⟩,
    ⟨gone, hgone, hended, -⟩, ⟨client, hclient, hruns, -⟩⟩ := hshown
  obtain ⟨hreply, -, hstopped, -, -, -, hrestored⟩ :=
    all_stopped_and_resumed mixedThreads hgrant hattaches (.client 0) (.client 1)
  refine ⟨hgrant, hattaches, hreply, ?_, ?_, ?_, ?_,
    hrestored fun _ _ => isSuspended_of_mixedThreads⟩
  · rw [hstopped 9 worker hworker, hown, hstate, if_pos ⟨by decide, by decide, by decide, hfailure⟩]
    rfl
  · rw [hstopped 10 stubborn hstubborn, hfailure']
    simpa using hstate'
  · rw [hstopped 11 gone hgone, hended, if_neg fun h => absurd h.2.1 (by decide)]
    exact congrArg some hended
  · rw [hstopped 12 client hclient, hown, if_neg fun h => h.1 rfl]
    exact congrArg some hruns

end DebugAgent

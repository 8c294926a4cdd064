import DebugAgent.Proofs.Session

/-!
# Threads that are stopped

What stopping threads does to each of them.  A thread is only ever left as it is or suspended, and
it is left running only if it has ended or the machine refuses to suspend it.  To stop one thread
changes no other; to stop all leaves out the thread of the native thread that asks.
-/

namespace DebugAgent

open DebugAgent.Action Command Tracking
open Relation (ReflTransGen)

/-! ### Bits of a state -/

theorem mask_or_and (a b flags : Int32) :
    (a ||| b) &&& flags = (a &&& flags) ||| (b &&& flags) := by
  apply Int32.toBitVec_inj.mp
  ext i
  simp [Bool.and_or_distrib_right]

theorem hasAny_or (a b flags : Int32) :
    hasAny (a ||| b) flags = (hasAny a flags || hasAny b flags) := by
  rw [Bool.eq_iff_iff]
  simp only [hasAny, mask_or_and, bne_iff_ne, Bool.or_eq_true, ne_eq, Int32.or_eq_zero_iff]
  exact not_and_or

theorem ThreadBody.halted_halted (body : ThreadBody) : body.halted.halted = body.halted := by
  simp [halted, Int32.or_assoc]

namespace Vm

variable {vm vm' vm'' : Vm} {thread : HeapId} {body : ThreadBody} {h : Handle}

/-! ### What becomes of threads -/

/-- The thread runs on only if it has ended or the machine refuses to suspend it. -/
def Stopped (vm : Vm) (thread : HeapId) : Prop :=
  ∀ body, vm.threadAt? thread = some body → body.suspendFailure = none →
    hasAny body.state ThreadState.terminated = false → hasAny body.state ThreadState.suspended

/-- Threads are left as they are, except for some. -/
def LeavesThreads (vm : Vm) (except : HeapId → Prop) (vm' : Vm) : Prop :=
  ∀ thread body, ¬ except thread → vm.threadAt? thread = some body →
    vm'.threadAt? thread = some body

/-- Every thread is left as it is or suspended. -/
def OnlySuspends (vm vm' : Vm) : Prop :=
  ∀ thread, vm'.threadAt? thread = vm.threadAt? thread ∨
    vm'.threadAt? thread = (vm.threadAt? thread).map ThreadBody.halted

/-- Some threads are stopped, as far as that is possible, and all others are left as they are. -/
structure StopsOnly (vm : Vm) (which : HeapId → Prop) (vm' : Vm) : Prop where
  kept : ∀ thread body, vm.threadAt? thread = some body →
    vm'.threadAt? thread = some body ∨ vm'.threadAt? thread = some body.halted
  others : vm.LeavesThreads which vm'
  stopped : ∀ thread, which thread → vm'.Stopped thread

theorem LeavesThreads.trans {except : HeapId → Prop} (hleaves : vm.LeavesThreads except vm')
    (hleaves' : vm'.LeavesThreads except vm'') : vm.LeavesThreads except vm'' :=
  fun thread body hnot hthread => hleaves' thread body hnot (hleaves thread body hnot hthread)

theorem LeavesThreads.mono {except more : HeapId → Prop}
    (hmore : ∀ thread, except thread → more thread)
    (hleaves : vm.LeavesThreads except vm') : vm.LeavesThreads more vm' :=
  fun thread body hnot hthread => hleaves thread body (mt (hmore thread) hnot) hthread

theorem threadAt?_congr (hheap : vm'.heap = vm.heap) (thread : HeapId) :
    vm'.threadAt? thread = vm.threadAt? thread := by
  rw [threadAt?_eq, threadAt?_eq, hheap]

theorem Stopped.congr (hstopped : vm.Stopped thread) (hheap : vm'.heap = vm.heap) :
    vm'.Stopped thread := by
  intro body hbody
  rw [threadAt?_congr hheap] at hbody
  exact hstopped body hbody

theorem leavesThreads_of_heap_eq (hheap : vm'.heap = vm.heap) (except : HeapId → Prop) :
    vm.LeavesThreads except vm' := by
  intro thread body _ hthread
  rwa [threadAt?_congr hheap]

theorem stopsOnly_of_heap_eq {which : HeapId → Prop} (hheap : vm'.heap = vm.heap)
    (hstopped : ∀ thread, which thread → vm.Stopped thread) : vm.StopsOnly which vm' where
  kept := fun thread _ hthread => .inl ((threadAt?_congr hheap thread).trans hthread)
  others := leavesThreads_of_heap_eq hheap which
  stopped := fun thread hwhich => (hstopped thread hwhich).congr hheap

theorem StopsOnly.of_heap_eq {which : HeapId → Prop} (hstops : vm.StopsOnly which vm')
    (hheap : vm''.heap = vm'.heap) : vm.StopsOnly which vm'' where
  kept := fun thread body hthread => by
    rw [threadAt?_congr hheap]
    exact hstops.kept thread body hthread
  others := hstops.others.trans (leavesThreads_of_heap_eq hheap which)
  stopped := fun thread hwhich => (hstops.stopped thread hwhich).congr hheap

/-- What was done before to other things makes no difference. -/
theorem StopsOnly.after {which : HeapId → Prop} (hleaves : vm.LeavesThreads (fun _ => False) vm')
    (hstops : vm'.StopsOnly which vm'') : vm.StopsOnly which vm'' where
  kept := fun thread body hthread => hstops.kept thread body (hleaves thread body id hthread)
  others := (hleaves.mono fun _ => False.elim).trans hstops.others
  stopped := hstops.stopped

theorem OnlySuspends.trans (hfirst : vm.OnlySuspends vm') (hlater : vm'.OnlySuspends vm'') :
    vm.OnlySuspends vm'' := by
  intro thread
  rcases hfirst thread with hsame | hhalted
  · simpa only [hsame] using hlater thread
  · refine .inr ?_
    rcases hlater thread with hsame | hagain
    · exact hsame.trans hhalted
    · rw [hagain, hhalted, Option.map_map]
      congr 1
      funext body
      exact body.halted_halted

theorem OnlySuspends.kept (hsuspends : vm.OnlySuspends vm')
    (hthread : vm.threadAt? thread = some body) :
    vm'.threadAt? thread = some body ∨ vm'.threadAt? thread = some body.halted := by
  rw [← Option.map_some, ← hthread]
  exact hsuspends thread

theorem OnlySuspends.stopped (hsuspends : vm.OnlySuspends vm') (hstopped : vm.Stopped thread) :
    vm'.Stopped thread := by
  intro body hbody hfailure hlive
  rcases hsuspends thread with hsame | hhalted
  · exact hstopped body (hsame.symm.trans hbody) hfailure hlive
  · rw [hhalted] at hbody
    obtain ⟨before, -, rfl⟩ := Option.map_eq_some_iff.mp hbody
    simp only [ThreadBody.halted, hasAny_or, Bool.or_eq_true]
    exact .inr (by decide)

/-- A thread that has not ended had not ended before. -/
theorem OnlySuspends.live (hsuspends : vm.OnlySuspends vm') (hlive : vm'.isLiveThread thread) :
    vm.isLiveThread thread := by
  rw [isLiveThread] at hlive ⊢
  rcases hsuspends thread with hsame | hhalted
  · rwa [hsame] at hlive
  · rw [hhalted] at hlive
    cases hthread : vm.threadAt? thread with
    | none =>
        rw [hthread] at hlive
        cases hlive
    | some body =>
        simp only [hthread, Option.map_some, Option.any_some, ThreadBody.halted, hasAny_or,
          Bool.not_or, Bool.and_eq_true] at hlive ⊢
        exact hlive.1

/-! ### Stopping one thread -/

theorem threadAt?_setThread (hthread : vm.threadAt? thread = some body) (later : ThreadBody)
    (other : HeapId) : (vm.setBody thread (.thread later)).threadAt? other =
      if other = thread then some later else vm.threadAt? other := by
  rw [threadAt?_eq, heap_setBody]
  by_cases hsame : other = thread
  · subst hsame
    rw [threadAt?_eq] at hthread
    obtain ⟨object, hobject, -⟩ := Option.bind_eq_some_iff.mp hthread
    simp [hobject, HeapObject.thread?]
  · simp [hsame, Ne.symm hsame, threadAt?_eq]

/-- A thread has been stopped, as far as that is possible, and no other has changed. -/
structure Stops (vm : Vm) (thread : HeapId) (after : Vm) : Prop where
  refs : after.refs = vm.refs
  attached : after.attached = vm.attached
  others : ∀ other, other ≠ thread → after.threadAt? other = vm.threadAt? other
  suspends : vm.OnlySuspends after
  stopped : after.Stopped thread

/-- A thread that is left as it is has been stopped if it does not run on. -/
theorem stops_of_heap_eq (hheap : vm'.heap = vm.heap) (hrefs : vm'.refs = vm.refs)
    (hattached : vm'.attached = vm.attached) (hstopped : vm.Stopped thread) :
    vm.Stops thread vm' where
  refs := hrefs
  attached := hattached
  others := fun other _ => threadAt?_congr hheap other
  suspends := fun other => .inl (threadAt?_congr hheap other)
  stopped := hstopped.congr hheap

theorem stops_setThread (hthread : vm.threadAt? thread = some body) :
    vm.Stops thread (vm.setBody thread (.thread body.halted)) := by
  have hsuspends : vm.OnlySuspends (vm.setBody thread (.thread body.halted)) := by
    intro other
    rw [threadAt?_setThread hthread]
    split
    · rename_i hsame
      rw [hsame, hthread]
      exact .inr rfl
    · exact .inl rfl
  refine ⟨rfl, rfl, fun other hother => ?_, hsuspends, fun later hlater _ _ => ?_⟩
  · rw [threadAt?_setThread hthread, if_neg hother]
  · rw [threadAt?_setThread hthread, if_pos rfl] at hlater
    cases hlater
    simp only [ThreadBody.halted, hasAny_or, Bool.or_eq_true]
    exact .inr (by decide)

theorem heap_noteOwn (caller : NativeThread) (h : Handle) (vm : Vm) :
    (vm.noteOwn caller h).heap = vm.heap := by
  rw [noteOwn]
  split
  · split <;> rfl
  · rfl

theorem perform_locateThread (htarget : vm.target? h = some thread)
    (hthread : vm.threadAt? thread = some body) :
    (locateThread h).perform vm = (.ok (thread, body), vm) := by
  rw [threadAt?_eq] at hthread
  obtain ⟨⟨cls, tag, held⟩, hobject, hbody⟩ := Option.bind_eq_some_iff.mp hthread
  cases held with
  | thread held =>
      cases hbody
      simp [locateThread, perform_bind, htarget, hobject]
  | _ => cases hbody

theorem stops_suspendOne (htarget : vm.target? h = some thread)
    (hthread : vm.threadAt? thread = some body) (caller : NativeThread) :
    ∃ result after, (suspendOne caller h).perform vm = (result, after) ∧ result ≠ .error .broken ∧
      vm.Stops thread after := by
  obtain ⟨-, hattached, hrefs⟩ := noteOwn_leaves caller h vm
  have hheap := heap_noteOwn caller h vm
  have hnoted : (vm.noteOwn caller h).threadAt? thread = some body :=
    (threadAt?_congr hheap thread).trans hthread
  have hlocated : (locateThread h).perform (vm.noteOwn caller h) =
      (.ok (thread, body), vm.noteOwn caller h) := by
    refine perform_locateThread ?_ hnoted
    rwa [target?, hrefs, ← target?]
  have hleft : vm.Stopped thread → vm.Stops thread (vm.noteOwn caller h) :=
    stops_of_heap_eq hheap hrefs hattached
  rw [suspendOne, perform_bind]
  change ∃ result after, (locateThread h >>= _).perform (vm.noteOwn caller h) = (result, after) ∧ _
  rw [perform_bind, hlocated]
  dsimp only
  cases hfailure : body.suspendFailure with
  | some failure =>
      refine ⟨_, _, rfl, by simp, hleft fun held hheld hnone => ?_⟩
      cases hheld.symm.trans hthread
      cases hnone.symm.trans hfailure
  | none =>
      dsimp only
      split
      · rename_i hended
        refine ⟨_, _, rfl, by simp, hleft fun held hheld _ hlive => ?_⟩
        cases hheld.symm.trans hthread
        cases hlive.symm.trans hended
      · split
        · rename_i hsuspended
          refine ⟨_, _, rfl, by simp, hleft fun held hheld _ _ => ?_⟩
          cases hheld.symm.trans hthread
          exact hsuspended
        · refine ⟨_, _, rfl, by simp, ?_⟩
          have hset := stops_setThread hnoted
          rw [ThreadBody.halted, hfailure] at hset
          obtain ⟨hrefs', hattached', hothers, hsuspends, hstopped⟩ := hset
          refine ⟨hrefs'.trans hrefs, hattached'.trans hattached, fun other hother => ?_, ?_,
            hstopped⟩
          · exact (hothers other hother).trans (threadAt?_congr hheap other)
          · exact OnlySuspends.trans (fun other => .inl (threadAt?_congr hheap other)) hsuspends

/-! ### Stopping all threads -/

theorem OnlySuspends.isSome (hsuspends : vm.OnlySuspends vm') :
    (vm'.threadAt? thread).isSome = (vm.threadAt? thread).isSome := by
  rcases hsuspends thread with hsame | hhalted
  · rw [hsame]
  · rw [hhalted, Option.isSome_map]

theorem target?_congr (hrefs : vm'.refs = vm.refs) (h : Handle) : vm'.target? h = vm.target? h := by
  rw [target?, target?, hrefs]

/-- Whatever comes of the first thread, the others are stopped after it. -/
theorem after_mapM_suspendOne {caller : NativeThread} {result : Except (Stop JvmtiError) Unit}
    {near : Vm} (hperform : (suspendOne caller h).perform vm = (result, near))
    (hsound : result ≠ .error .broken) (threads : List Handle) :
    (((h :: threads).mapM fun h => (suspendOne caller h).attempt : Call _).perform vm).2 =
      ((threads.mapM fun h => (suspendOne caller h).attempt : Call _).perform near).2 := by
  have hattempt : ∃ outcome, ((suspendOne caller h).attempt : Call _).perform vm =
      (.ok outcome, near) := by
    rw [attempt, perform_of, hperform]
    rcases result with (cause | _) | value
    · exact ⟨_, rfl⟩
    · exact absurd rfl hsound
    · exact ⟨_, rfl⟩
  obtain ⟨outcome, hattempt⟩ := hattempt
  rw [List.mapM_cons, perform_bind, hattempt]
  dsimp only
  rw [perform_bind]
  generalize (threads.mapM _ : Call _).perform near = rest
  obtain ⟨stop | results, after⟩ := rest <;> rfl

/-- Threads are stopped one after another, whatever comes of each. -/
theorem stops_mapM {threads : List Handle}
    (hthreads : ∀ h ∈ threads, ∃ thread, vm.target? h = some thread ∧ (vm.threadAt? thread).isSome)
    (caller : NativeThread) :
    let after := ((threads.mapM fun h => (suspendOne caller h).attempt : Call _).perform vm).2
    vm.OnlySuspends after ∧
      vm.LeavesThreads (fun thread => ∃ h ∈ threads, vm.target? h = some thread) after ∧
      ∀ h ∈ threads, ∀ thread, vm.target? h = some thread → after.Stopped thread := by
  induction threads generalizing vm with
  | nil => exact ⟨fun _ => .inl rfl, fun _ _ _ h => h, fun _ hmem => by cases hmem⟩
  | cons h threads ih =>
      obtain ⟨⟨thread, htarget, hthread⟩, hrest⟩ := List.forall_mem_cons.mp hthreads
      obtain ⟨body, hbody⟩ := Option.isSome_iff_exists.mp hthread
      obtain ⟨result, near, hperform, hsound, hstops⟩ := stops_suspendOne htarget hbody caller
      have hsame : ∀ h, near.target? h = vm.target? h := target?_congr hstops.refs
      have hnear : ∀ h ∈ threads, ∃ thread,
          near.target? h = some thread ∧ (near.threadAt? thread).isSome := by
        intro h hmem
        obtain ⟨thread, htarget, hthread⟩ := hrest h hmem
        exact ⟨thread, (hsame h).trans htarget, hstops.suspends.isSome.trans hthread⟩
      obtain ⟨hsuspends, hothers, hstopped⟩ := ih hnear
      rw [after_mapM_suspendOne hperform hsound]
      refine ⟨hstops.suspends.trans hsuspends, ?_, List.forall_mem_cons.mpr ⟨?_, ?_⟩⟩
      · intro other body hnot hbody
        refine hothers other body ?_ ?_
        · rintro ⟨h, hmem, hother⟩
          exact hnot ⟨h, List.mem_cons_of_mem _ hmem, (hsame h).symm.trans hother⟩
        · rw [hstops.others other fun heq => hnot ⟨h, List.mem_cons_self, heq ▸ htarget⟩]
          exact hbody
      · intro other hother
        cases htarget.symm.trans hother
        exact hsuspends.stopped hstops.stopped
      · exact fun h hmem other hother => hstopped h hmem other ((hsame h).trans hother)

theorem stops_suspendThreads (hgrant : vm.grants Capabilities.canSuspend) {threads : List Handle}
    (hthreads : ∀ h ∈ threads, ∃ thread, vm.target? h = some thread ∧ (vm.threadAt? thread).isSome)
    (caller : NativeThread) :
    let after := ((suspendThreads caller threads).perform vm).2
    vm.OnlySuspends after ∧
      vm.LeavesThreads (fun thread => ∃ h ∈ threads, vm.target? h = some thread) after ∧
      ∀ h ∈ threads, ∀ thread, vm.target? h = some thread → after.Stopped thread := by
  rw [suspendThreads, perform_bind, perform_inspect, demand_ok hgrant]
  exact stops_mapM hthreads caller

theorem mem_liveThreadIds : thread ∈ vm.liveThreadIds ↔ vm.isLiveThread thread := by
  rw [liveThreadIds, List.mem_filter, isLiveThread]
  cases hthread : vm.threadAt? thread with
  | none => simp
  | some body =>
      have hlive : thread < vm.heap.size := by
        rw [threadAt?_eq] at hthread
        obtain ⟨object, hobject, -⟩ := Option.bind_eq_some_iff.mp hthread
        exact (Array.getElem?_eq_some_iff.mp hobject).1
      simp [hlive]

end Vm

/-- What is no thread, or one that has ended, does not run on. -/
theorem Vm.stopped_of_ended {vm : Vm} {thread : HeapId} (hended : vm.isLiveThread thread = false) :
    vm.Stopped thread := by
  intro body hbody _ hlive
  simp [isLiveThread, hbody, hlive] at hended

namespace Suspension

variable {a : Agent} {own : HeapId} {current : Handle}

theorem dropLocals_heap (hs : List Handle) (vm : Vm) : (hs.foldl dropLocal vm).heap = vm.heap :=
  (Vm.leaves_of_glances (Vm.glance_dropLocals hs vm)).1

/-- The threads that are listed are stopped, but for the current one. -/
theorem stops_suspendListed (hb : a.vm.RefsBounded) (hgrant : a.vm.grants Capabilities.canSuspend)
    (hcurrent : a.vm.target? current = some own) (caller : NativeThread) :
    let after := ((suspendListed caller current).perform a).2
    a.vm.OnlySuspends after.vm ∧ a.vm.LeavesThreads (· ≠ own) after.vm ∧
      ∀ thread, thread ≠ own → a.vm.isLiveThread thread → after.vm.Stopped thread := by
  let listed := Vm.newLocals a.vm.liveThreadIds a.vm
  let targets := others listed.2 current listed.1
  obtain ⟨hheap, hcapabilities, -⟩ :=
    Vm.leaves_of_glances (Vm.glance_newLocals a.vm.liveThreadIds a.vm)
  obtain ⟨hforth, hback⟩ := Vm.target?_newLocals hb a.vm.liveThreadIds
  have hown : listed.2.target? current = some own := Vm.target?_newLocals_of_some hb hcurrent _
  have hgrant' : listed.2.grants Capabilities.canSuspend := by
    rwa [Vm.grants, hcapabilities, ← Vm.grants]
  have hthreads : ∀ h ∈ targets, ∃ thread,
      listed.2.target? h = some thread ∧ (listed.2.threadAt? thread).isSome := by
    intro h hmem
    obtain ⟨thread, hthread, htarget⟩ := hback h ((Vm.mem_others hown).mp hmem).1
    have hlive : a.vm.isLiveThread thread := Vm.mem_liveThreadIds.mp hthread
    refine ⟨thread, htarget, ?_⟩
    rw [Vm.threadAt?_congr hheap]
    exact Option.isSome_of_any hlive
  obtain ⟨hsuspends, hothers, hstopped⟩ := Vm.stops_suspendThreads hgrant' hthreads caller
  have hafter : ((suspendListed caller current).perform a).2.vm.heap =
      ((Vm.suspendThreads caller targets).perform listed.2).2.heap := by
    rw [perform_suspendListed, dropLocals_heap]
  refine ⟨fun thread => ?_, fun thread body hnot hbody => ?_, fun thread hother hlive => ?_⟩
  · rw [Vm.threadAt?_congr hafter, ← Vm.threadAt?_congr hheap thread]
    exact hsuspends thread
  · cases not_not.mp hnot
    rw [Vm.threadAt?_congr hafter]
    refine hothers own body (fun hlisted => ?_) ((Vm.threadAt?_congr hheap own).trans hbody)
    obtain ⟨h, hmem, htarget⟩ := hlisted
    exact ((Vm.mem_others hown).mp hmem).2 htarget
  · obtain ⟨h, hmem, htarget⟩ := hforth thread (Vm.mem_liveThreadIds.mpr hlive)
    have hthread : listed.2.target? h = some thread := htarget
    refine (hstopped h ((Vm.mem_others hown).mpr ⟨hmem, ?_⟩) thread htarget).congr hafter
    rw [hthread]
    exact fun hsame => hother (Option.some.inj hsame)

theorem stops_suspendAll (hb : a.vm.RefsBounded) (hgrant : a.vm.grants Capabilities.canSuspend)
    {caller : NativeThread} (hown : a.vm.attached.get? caller = some own) :
    a.vm.StopsOnly (· ≠ own) ((suspendAll caller).perform a).2.vm := by
  let entered := a.setVm (a.vm.newLocal own).2
  let listed := (suspendListed caller (a.vm.newLocal own).1).perform entered
  have hcurrent : (Vm.currentThread caller).perform a.vm =
      (.ok (a.vm.newLocal own).1, (a.vm.newLocal own).2) := by
    simp [Vm.currentThread, perform_bind, hown]
  have hafter : ((suspendAll caller).perform a).2.vm.heap = listed.2.vm.heap := by
    rw [suspendAll, perform_bind, perform_tryCall_ok hcurrent]
    exact dropLocals_heap _ _
  obtain ⟨hsuspends, hleaves, hstopped⟩ := stops_suspendListed (a := entered)
    ((Vm.ages_newRef a.vm .localRef own).bounded hb) hgrant
    (Vm.target?_newRef a.vm .localRef own) caller
  have honly : a.vm.OnlySuspends ((suspendAll caller).perform a).2.vm := by
    intro thread
    rw [Vm.threadAt?_congr hafter]
    exact hsuspends thread
  refine ⟨fun _ _ => honly.kept, fun thread body hown hbody => ?_, fun thread hother => ?_⟩
  · rw [Vm.threadAt?_congr hafter]
    exact hleaves thread body hown hbody
  · cases hlive : a.vm.isLiveThread thread with
    | true => exact (hstopped thread hother hlive).congr hafter
    | false => exact honly.stopped (Vm.stopped_of_ended hlive)

/-- Stopping a live thread is one call of the machine, in the midst of a reference to the thread. -/
theorem heap_suspend (hgrant : a.vm.grants Capabilities.canSuspend) {thread : HeapId} {id : ObjectId}
    (hnamed : a.tracker.target? a.vm id = some thread) (hlive : a.vm.isLiveThread thread)
    (caller : NativeThread) :
    ((suspend caller id).perform a).2.vm.heap =
      ((Vm.suspendOne caller (a.vm.newLocal thread).1).perform (a.vm.newLocal thread).2).2.heap := by
  have hcall : ((call (Vm.suspendThread caller (a.vm.newLocal thread).1)).perform
      (a.opened thread)).2.vm =
        ((Vm.suspendOne caller (a.vm.newLocal thread).1).perform (a.vm.newLocal thread).2).2 := by
    have hdemand : (a.opened thread).vm.demand Capabilities.canSuspend = .ok () :=
      Vm.demand_ok hgrant
    rw [call, perform_within, perform_mapCause_snd, Vm.suspendThread, perform_bind,
      perform_inspect, hdemand]
    rfl
  rw [← hcall, suspend, perform_withThread_live hnamed hlive, perform_withLocal]
  exact dropLocals_heap [(a.vm.newLocal thread).1] _

/-- Stopping a thread stops the one that the identifier designates and changes no other. -/
theorem stops_suspend (hb : a.vm.RefsBounded) (hgrant : a.vm.grants Capabilities.canSuspend)
    (caller : NativeThread) (id : ObjectId) :
    a.vm.StopsOnly (fun thread => a.tracker.target? a.vm id = some thread)
      ((suspend caller id).perform a).2.vm := by
  cases hnamed : a.tracker.target? a.vm id with
  | none =>
      rw [suspend, perform_withThread_dead hnamed]
      exact Vm.stopsOnly_of_heap_eq rfl fun _ h => by cases h
  | some thread =>
      cases hlive : a.vm.isLiveThread thread with
      | false =>
          rw [suspend, perform_withThread_ended hb hnamed hlive]
          refine Vm.stopsOnly_of_heap_eq rfl fun other hother => ?_
          cases hother
          exact Vm.stopped_of_ended hlive
      | true =>
          obtain ⟨body, hbody⟩ := Option.isSome_iff_exists.mp (Option.isSome_of_any hlive)
          have htarget : (a.opened thread).vm.target? (a.vm.newLocal thread).1 = some thread :=
            Vm.target?_newRef a.vm .localRef thread
          have hthread : (a.opened thread).vm.threadAt? thread = some body := hbody
          obtain ⟨result, stopped, hperform, -, hstops⟩ :=
            Vm.stops_suspendOne htarget hthread caller
          have hafter : ((suspend caller id).perform a).2.vm.heap = stopped.heap :=
            (heap_suspend hgrant hnamed hlive caller).trans (congrArg (·.2.heap) hperform)
          have hsame := fun other => Vm.threadAt?_congr hafter other
          refine ⟨fun other body hbefore => ?_, fun other body hother hbefore => ?_,
            fun other hother => ?_⟩
          · rw [hsame]
            exact hstops.suspends.kept hbefore
          · rw [hsame, hstops.others other fun heq => hother (by rw [heq])]
            exact hbefore
          · cases hother
            exact hstops.stopped.congr hafter

end Suspension

end DebugAgent

import DebugAgent.Proofs.Occurrences

/-!
# Patterns for class names

A pattern describes the texts that come of it when every star in it is replaced by some text.  Where
only the first or the last character is a star, the test of a name decides just that.

What is tested is the name of the class that a callback is about: the class that has been prepared,
or the class that declares the method where something has happened.  It is made from the signature
of the class while the callback is captured, at different places for different callbacks.
-/

namespace DebugAgent

open DebugAgent.Action Command Tracking

/-! ### What patterns describe -/

/-- A text comes of a pattern when stars are replaced by texts. -/
inductive Describes : List Char → List Char → Prop where
  | nil : Describes [] []
  | star (text : List Char) {pattern name} :
      Describes pattern name → Describes ('*' :: pattern) (text ++ name)
  | letter {c : Char} {pattern name} (hletter : c ≠ '*') :
      Describes pattern name → Describes (c :: pattern) (c :: name)

/-- There is no star in a pattern, or only one, at the front or at the back. -/
inductive StarAtEdge : List Char → Prop where
  | nowhere {pattern} (hplain : '*' ∉ pattern) : StarAtEdge pattern
  | front {ending} (hplain : '*' ∉ ending) : StarAtEdge ('*' :: ending)
  | back {beginning} (hplain : '*' ∉ beginning) : StarAtEdge (beginning ++ ['*'])

section Patterns

variable {c : Char} {pattern beginning ending name : List Char}

theorem describes_nil : Describes [] name ↔ name = [] := by
  constructor
  · rintro ⟨⟩
    rfl
  · rintro rfl
    exact .nil

theorem describes_star : Describes ('*' :: pattern) name ↔
    ∃ text rest, name = text ++ rest ∧ Describes pattern rest := by
  constructor
  · intro h
    cases h with
    | star text h => exact ⟨text, _, rfl, h⟩
    | letter hletter => exact absurd rfl hletter
  · rintro ⟨text, rest, rfl, h⟩
    exact .star text h

theorem describes_letter (hletter : c ≠ '*') :
    Describes (c :: pattern) name ↔ ∃ rest, name = c :: rest ∧ Describes pattern rest := by
  constructor
  · intro h
    cases h with
    | star => exact absurd rfl hletter
    | letter _ h => exact ⟨_, rfl, h⟩
  · rintro ⟨rest, rfl, h⟩
    exact .letter hletter h

/-- Letters stand for themselves, wherever the pattern goes on. -/
theorem describes_append (hplain : '*' ∉ beginning) : Describes (beginning ++ ending) name ↔
    ∃ rest, name = beginning ++ rest ∧ Describes ending rest := by
  induction beginning generalizing name with
  | nil => simp
  | cons c beginning ih =>
      obtain ⟨hletter, hplain⟩ := not_or.mp (mt List.mem_cons.mpr hplain)
      rw [List.cons_append, describes_letter (Ne.symm hletter)]
      simp only [ih hplain]
      constructor
      · rintro ⟨_, rfl, rest, rfl, h⟩
        exact ⟨rest, rfl, h⟩
      · rintro ⟨rest, rfl, h⟩
        exact ⟨beginning ++ rest, rfl, rest, rfl, h⟩

theorem describes_plain (hplain : '*' ∉ pattern) : Describes pattern name ↔ name = pattern := by
  have happend : Describes (pattern ++ []) name ↔
      ∃ rest, name = pattern ++ rest ∧ Describes [] rest := describes_append hplain
  simpa [describes_nil] using happend

theorem classPatternMatches_plain (hplain : '*' ∉ pattern) :
    classPatternMatches pattern name ↔ name = pattern := by
  rw [classPatternMatches]
  · split
    · rename_i hlast
      exact absurd (List.mem_of_getLast? hlast) hplain
    · rw [beq_iff_eq, eq_comm]
  · rintro ending rfl
    exact hplain List.mem_cons_self

theorem classPatternMatches_front :
    classPatternMatches ('*' :: ending) name ↔ ∃ text, name = text ++ ending := by
  rw [classPatternMatches, List.isSuffixOf_iff_suffix]
  exact exists_congr fun text => eq_comm

theorem classPatternMatches_back (hplain : '*' ∉ beginning) :
    classPatternMatches (beginning ++ ['*']) name ↔ ∃ text, name = beginning ++ text := by
  cases beginning with
  | nil => exact classPatternMatches_front.trans (by simp)
  | cons c beginning =>
      rw [classPatternMatches, List.getLast?_concat, List.dropLast_concat]
      · exact List.isPrefixOf_iff_prefix.trans (exists_congr fun text => eq_comm)
      · rintro ending ⟨⟩
        exact hplain List.mem_cons_self

/-- The test of a name decides whether the pattern describes it. -/
theorem classPatternMatches_iff (hedge : StarAtEdge pattern) :
    classPatternMatches pattern name ↔ Describes pattern name := by
  cases hedge with
  | nowhere hplain => rw [classPatternMatches_plain hplain, describes_plain hplain]
  | front hplain =>
      rw [classPatternMatches_front, describes_star]
      simp only [describes_plain hplain, exists_eq_right]
  | back hplain =>
      rw [classPatternMatches_back hplain, describes_append hplain]
      refine exists_congr fun text => (and_iff_left ?_).symm
      exact describes_star.mpr ⟨text, [], (List.append_nil text).symm, .nil⟩

end Patterns

/-! ### The class of a callback -/

/-- The signature of the class that a callback is about: the class that has been prepared, or the
one that declares the method where something has happened. -/
def Vm.signatureIn? (vm : Vm) : Callback (Option HeapId) → Option String
  | .vmDeath | .threadStart _ | .threadEnd _ => none
  | .classPrepare _ prepared => (prepared.bind vm.classAt?).map ClassBody.signature
  | .breakpoint _ method _ | .singleStep _ method _ | .exception _ method _ _ _
  | .methodEntry _ method | .methodExit _ method _ => vm.declaredIn method

/-- The name is the one that the signature gives, if there is a signature. -/
def NameOf (signature className : Option String) : Prop :=
  ∀ given ∈ signature, className = some (Signature.className given)

theorem nameOf_signature {signature : String} :
    NameOf (some signature) (some (Signature.className signature)) := by
  rintro _ ⟨⟩
  rfl

/-- In the given world, where references are valid as in it, the command comes to such results
only. -/
def Command.Yields {α : Type} (vm : Vm) (x : Command α) (P : α → Prop) : Prop :=
  ∀ a b r, Orderly a → vm.KeepsWorld a.vm → vm.Stands a.vm → x.perform a = (.ok r, b) → P r

variable {α β : Type} {a : Agent} {vm : Vm} {h : Handle} {cls : HeapId}

namespace Command.Yields

variable {P : α → Prop} {Q : β → Prop} {x : Command α} {f : α → Command β}

theorem of_returns (hx : x.Returns P) : Yields vm x P :=
  fun a b r _ _ _ hperform => hx a r b hperform

theorem bind (hlooks : Looks Control.Any x) (hx : Yields vm x P)
    (hf : ∀ r, P r → Yields vm (f r) Q) : Yields vm (x >>= f) Q := by
  intro a b s ho hworld hstands hperform
  obtain ⟨r, near, hone, hrest⟩ := perform_bind_ok hperform
  have hnear := ho.evolves (hlooks.evolves ho)
  have hworld' := hworld.trans (hlooks.keepsWorld.perform a)
  have hstands' : vm.Stands (x.perform a).2.vm :=
    fun htarget => hlooks.target? ho (hstands htarget)
  rw [hone] at hnear hworld' hstands'
  exact hf r (hx a near r ho hworld hstands hone) near b s hnear hworld' hstands' hrest

/-- A command that tells nothing comes first. -/
theorem after (hlooks : Looks Control.Any x) (hf : ∀ r, Yields vm (f r) Q) :
    Yields vm (x >>= f) Q :=
  bind (P := fun _ => True) hlooks (fun _ _ _ _ _ _ _ => trivial) fun r _ => hf r

/-- What the machine says of a class at hand. -/
theorem signature (htarget : vm.target? h = some cls) :
    Yields vm (ask fun vm => vm.classSignature h) fun found =>
      (vm.classAt? cls).map ClassBody.signature = some found.1 := by
  intro a b found _ hworld hstands hperform
  have hfound := (ok_of_ask hperform).1
  rw [Vm.classSignature] at hfound
  split at hfound
  · rename_i body hclass
    cases hfound
    rw [← hworld.classes, Vm.classAt?_of_classOf (hstands htarget) hclass, Option.map_some]
  · cases hfound

theorem siteIn (htarget : vm.target? h = some cls) (method : MethodId) (index : CodeIndex) :
    Yields vm (Capture.siteIn method index h) fun spot =>
      NameOf ((vm.classAt? cls).map ClassBody.signature) (some spot.className) := by
  refine after (Positions.looks_locationIn h method index) fun _ => ?_
  refine (signature htarget).bind (looks_ask _) fun found hfound => of_returns ?_
  rw [hfound]
  exact returns_after fun _ => returns_pure nameOf_signature

/-- The class at the site of a method is the one that declares the method. -/
theorem site (vm : Vm) (method : MethodId) (index : CodeIndex) :
    Yields vm (Capture.site method index) fun spot =>
      NameOf (vm.declaredIn method) (some spot.className) := by
  intro a b spot ho hworld _ hperform
  have hsite : Capture.site method index =
    Positions.withDeclaringClass method (Capture.siteIn method index) := rfl
  rw [← hworld.declaredIn, Vm.declaredIn]
  cases hdecl : a.vm.methods.get? method with
  | none => exact fun _ hmem => by cases hmem
  | some decl =>
      have htarget := Vm.target?_newRef a.vm .localRef decl.cls
      rw [hsite, perform_withDeclaringClass hdecl, perform_withLocal] at hperform
      exact siteIn htarget method index _ _ spot (ho.opened decl.cls) (.refl _) id
        (Prod.ext (Prod.mk.inj hperform).1 rfl)

/-- What else is gathered at the site of a method does not change the class. -/
theorem atSite {rest : Capture.Site → Command Context} (method : MethodId) (index : CodeIndex)
    (hrest : ∀ spot, (rest spot).Returns fun ctx => ctx.className = some spot.className) :
    Yields vm (Capture.site method index >>= rest) fun ctx =>
      NameOf (vm.declaredIn method) ctx.className :=
  (site vm method index).bind (Capture.looks_site method index) fun spot hspot =>
    of_returns fun a ctx b hperform => hrest spot a ctx b hperform ▸ hspot

/-- A valid reference is copied. -/
theorem another {f : Handle → Command α} (htarget : vm.target? h = some cls)
    (hf : ∀ {now g}, vm.KeepsWorld now → now.target? g = some cls → Yields now (f g) P) :
    Yields vm (touch (Vm.newLocalRef h) >>= fun g => withLocal g (f g)) P := by
  intro a b r ho hworld hstands hperform
  have hcopy : (touch (Vm.newLocalRef h)).perform a =
      (.ok (a.vm.newLocal cls).1, a.opened cls) := by
    simp [touch, Vm.newLocalRef, hstands htarget, Agent.opened, Vm.newLocal]
  have hcopied := Vm.target?_newRef a.vm .localRef cls
  have hopened : vm.KeepsWorld (a.opened cls).vm := hworld.trans (.of_heap_eq rfl rfl rfl rfl)
  rw [perform_bind_of_ok hcopy, perform_withLocal] at hperform
  exact hf hopened hcopied _ _ r (ho.opened cls) (.refl _) id
    (Prod.ext (Prod.mk.inj hperform).1 rfl)

theorem prepared (htarget : vm.target? h = some cls) (thread : Handle) (wanted : Bool) :
    Yields vm (Capture.capture wanted (.classPrepare thread h)) fun ctx =>
      NameOf ((vm.classAt? cls).map ClassBody.signature) ctx.className := by
  refine after (Capture.looks_scene thread) fun _ => another htarget fun hnow hcopy => ?_
  refine after (looks_requireRef _ _) fun _ => after (looks_trackClass _) fun _ => ?_
  refine (signature hcopy).bind (looks_ask _) fun found hfound => of_returns ?_
  rw [← hnow.classes, hfound]
  exact returns_after fun _ => returns_after fun _ => returns_pure nameOf_signature

/-- The name of the class of a callback is what its signature says. -/
theorem capture (wanted : Bool) (c : Callback Handle) :
    Yields vm (Capture.capture wanted c) fun ctx =>
      NameOf (vm.signatureIn? (c.resolved vm)) ctx.className := by
  cases c with
  | vmDeath | threadStart | threadEnd => exact fun _ _ _ _ _ _ _ _ hmem => by cases hmem
  | classPrepare h prepared =>
      have hsignature : vm.signatureIn? ((Callback.classPrepare h prepared).resolved vm) =
          ((vm.target? prepared).bind vm.classAt?).map ClassBody.signature := rfl
      rw [hsignature]
      cases htarget : vm.target? prepared with
      | none => exact fun _ _ _ _ _ _ _ _ hmem => by cases hmem
      | some cls => exact Yields.prepared htarget h wanted
  | breakpoint h method index | methodExit h method index =>
      refine after (Capture.looks_scene h) fun _ => atSite method index fun _ => ?_
      exact returns_after fun _ => returns_pure rfl
  | singleStep h method index =>
      refine after (Capture.looks_scene h) fun _ => atSite method index fun _ => ?_
      exact returns_after fun _ => returns_after fun _ => returns_after fun _ => returns_pure rfl
  | exception h method index thrown caught =>
      refine after (Capture.looks_scene h) fun _ => atSite method index fun _ => ?_
      refine returns_after fun _ => returns_after fun _ => ?_
      cases caught <;> exact returns_after fun _ => returns_after fun _ => returns_pure rfl
  | methodEntry h method =>
      refine after (Capture.looks_scene h) fun _ => after (looks_ask _) fun found => ?_
      exact atSite method found.1 fun _ => returns_after fun _ => returns_pure rfl

end Command.Yields

theorem Vm.KeepsWorld.signatureIn? {vm' : Vm} (h : vm.KeepsWorld vm') :
    vm'.signatureIn? = vm.signatureIn? := by
  funext c
  cases c <;> simp only [Vm.signatureIn?, h.classes, h.declaredIn]

/-- Filters are shown the name of the class that the callback is about. -/
theorem nameOf_sighting (ho : Orderly a) {op : Op} {sighting : Sighting}
    (hsighting : a.sighting? op = some sighting) :
    NameOf ((a.occurrence? op).bind a.vm.signatureIn?) sighting.ctx.className := by
  obtain ⟨kind, ctx, seen⟩ := sighting
  obtain ⟨near, caller, c, hcalled, hcaptured, -⟩ := Agent.sighting?_eq_some hsighting
  have hnear : Orderly near := ho.unfolds (calledBack?_leaves ho hcalled).1
  rw [occurrence?_of_calledBack ho.refs hcalled, Option.bind_some,
    ← (keepsWorld_of_calledBack hcalled).signatureIn?]
  exact Command.Yields.capture _ c _ seen ctx (hnear.attached caller) (.attach near.vm caller)
    (fun htarget => (target?_attach near.vm caller _).trans htarget)
    (perform_capture_of_captured hcaptured)

/-! ### Filters for class names -/

/-- The name of a class with dots for slashes. -/
def dotted (name : List Char) : List Char :=
  name.map fun c => if c = '/' then '.' else c

theorem className_class (name : String) :
    Signature.className ("L" ++ name ++ ";") = String.ofList (dotted name.toList) := by
  have hletters : ("L" ++ name ++ ";").toList = 'L' :: (name.toList ++ [';']) := by
    simp
  rw [Signature.className, hletters]
  simp [dotted]

/-- A callback that carries a class passes a filter for a pattern exactly if the pattern describes
the name of the class, with dots for slashes; here the pattern may have one star, as its first or as
its last character.  For any pattern, and whether there is a class or not, a callback passes either
the filter for the pattern or the one that excludes it, but not both.  The state in which a filter
is tested makes no difference. -/
theorem class_filters_follow_pattern (past : Past) {op : Op} {sighting : Sighting}
    (hsighting : past.agent.sighting? op = some sighting) (stepThread : Option Handle)
    (now : Agent) :
    let tested (filter : Filter) := ((filter.check sighting.ctx stepThread).perform now).1
    (∀ name : String, (past.agent.occurrence? op).bind past.agent.vm.signatureIn? =
        some ("L" ++ name ++ ";") →
      ∀ pattern : String, StarAtEdge pattern.toList →
        (tested (.classMatch pattern) = .ok true ↔
          Describes pattern.toList (dotted name.toList))) ∧
    ∀ pattern : String, ∃ accepted,
      tested (.classMatch pattern) = .ok accepted ∧
      tested (.classExclude pattern) = .ok (!accepted) := by
  intro tested
  have htested : ∀ pattern,
      tested (.classMatch pattern) = .ok (Filter.nameMatches pattern sighting.ctx.className) ∧
      tested (.classExclude pattern) = .ok (!Filter.nameMatches pattern sighting.ctx.className) :=
    fun _ => ⟨rfl, rfl⟩
  refine ⟨fun name hname pattern hedge => ?_, fun pattern => ⟨_, htested pattern⟩⟩
  have hclass := nameOf_sighting past.inOrder.toOrderly hsighting _ hname
  rw [(htested pattern).1, Except.ok.injEq, Filter.nameMatches, hclass, Option.any_some,
    className_class, String.toList_ofList, classPatternMatches_iff hedge]

/-- A client that asks for classes that are prepared.  One class has been defined and a thread is
there to prepare it. -/
def Past.loading : Past where
  steps := [.defineClass "Lcom/example/Widget;", .spawnThread "loader"]
  config := {}
  incidents := [.op (.attach (.client 0) true),
    .op (.command (.client 0) (.setEvent EventKind.classPrepare.code .none []))]

/-- A filter for the package lets the class pass, so one that excludes the package does not. -/
theorem widget_in_package :
    let prepared : Op := .deliver (.client 0) (.classPrepare 10 9)
    ∃ sighting, Past.loading.agent.sighting? prepared = some sighting ∧
      (Past.loading.agent.occurrence? prepared).bind Past.loading.agent.vm.signatureIn? =
        some ("L" ++ "com/example/Widget" ++ ";") ∧
      StarAtEdge "com.example.*".toList ∧
      ((Filter.check sighting.ctx none (.classMatch "com.example.*")).perform
        sighting.seen).1 = .ok true ∧
      ((Filter.check sighting.ctx none (.classExclude "com.example.*")).perform
        sighting.seen).1 = .ok false := by
  intro prepared
  have hname : (Past.loading.agent.occurrence? prepared).bind Past.loading.agent.vm.signatureIn? =
      some ("L" ++ "com/example/Widget" ++ ";") := by decide +kernel
  have hplain : '*' ∉ "com.example.".toList := by decide
  have hedge : StarAtEdge "com.example.*".toList := .back hplain
  have hdescribes : Describes "com.example.*".toList (dotted "com/example/Widget".toList) :=
    (describes_append hplain).mpr ⟨"Widget".toList, rfl, .star "Widget".toList .nil⟩
  obtain ⟨sighting, hsighting⟩ :
      ∃ sighting, Past.loading.agent.sighting? prepared = some sighting :=
    Option.isSome_iff_exists.mp (by decide +kernel)
  obtain ⟨hmatches, heither⟩ :=
    class_filters_follow_pattern Past.loading hsighting none sighting.seen
  have hpasses := (hmatches _ hname _ hedge).mpr hdescribes
  obtain ⟨accepted, hmatch, hexclude⟩ := heither "com.example.*"
  cases hmatch.symm.trans hpasses
  exact ⟨sighting, hsighting, hname, hedge, hpasses, hexclude⟩

end DebugAgent

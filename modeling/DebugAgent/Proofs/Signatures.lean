import DebugAgent.Proofs.Naming
import DebugAgent.Proofs.Past
import DebugAgent.Proofs.Progress

/-!
# Signatures

Reading a signature undoes writing it, and nothing else is read: a reader takes a type off the front
of its input exactly if the input starts with what the type is written as.  No type is written as
the beginning of another one, so this also holds of a list of types that nothing separates, and
parentheses in the names of classes do no harm.

What is said about whole texts follows: a text is the signature of at most one type or method, a
second look at the first letter or at the component of an array agrees with the reader, and the
arguments of a method take as many slots as its signature says.
-/

namespace DebugAgent

/-- The text with these characters. -/
theorem toList_eq_iff {s : String} {letters : List Char} :
    s.toList = letters ↔ s = String.ofList letters :=
  ⟨fun h => h ▸ String.ofList_toList.symm, fun h => h ▸ String.toList_ofList⟩

namespace Signature

variable {whole : String} {input name rest : List Char} {t : JavaType} {ts : List JavaType}

/-! ### Names of classes -/

theorem splitClassName_append (h : ';' ∉ name) (rest : List Char) :
    splitClassName (name ++ ';' :: rest) = some (name, rest) := by
  induction name with
  | nil => rfl
  | cons c name ih =>
      obtain ⟨hc, hname⟩ := not_or.mp (mt List.mem_cons.mpr h)
      rw [List.cons_append, splitClassName, if_neg (Ne.symm hc), ih hname]
      rfl

theorem eq_append_of_splitClassName (h : splitClassName input = some (name, rest)) :
    input = name ++ ';' :: rest ∧ ';' ∉ name := by
  induction input generalizing name with
  | nil => cases h
  | cons c input ih =>
      rw [splitClassName] at h
      split at h
      · rename_i hc
        cases h
        exact ⟨by rw [hc, List.nil_append], List.not_mem_nil⟩
      · rename_i hc
        obtain ⟨⟨tail, later⟩, htail, hpair⟩ := Option.map_eq_some_iff.mp h
        cases hpair
        obtain ⟨rfl, hmem⟩ := ih htail
        exact ⟨rfl, List.not_mem_cons_of_ne_of_not_mem (Ne.symm hc) hmem⟩

/-! ### One type -/

/-- The letters stand for the types that are written as one letter. -/
theorem render_of_ofLetter? {c : Char} (h : ofLetter? c = some t) : t.render = [c] ∧ t.WellFormed := by
  unfold ofLetter? at h
  split at h
  all_goals first | exact ⟨Option.some.inj h ▸ rfl, Option.some.inj h ▸ trivial⟩ | cases h

/-- A type is read back from what it is written as, whatever follows. -/
theorem takeType_render (ht : t.WellFormed) (whole : String) (rest : List Char) :
    takeType whole (t.render ++ rest) = .ok (t, rest) := by
  induction t with
  | object className =>
      obtain ⟨hname, hend⟩ := ht
      have hsplit := splitClassName_append hend rest
      have hinput : JavaType.render (.object className) ++ rest =
          'L' :: (className.toList ++ ';' :: rest) := by
        simp [JavaType.render]
      rw [hinput, takeType]
      simp [ofLetter?, hsplit, hname]
  | array component ih =>
      obtain ⟨hcomponent, hvoid⟩ := ht
      rw [JavaType.render, List.cons_append, takeType]
      simp [ofLetter?, ih hcomponent, hvoid]
  | _ => rfl

/-- What is read as a type is what the type is written as. -/
theorem eq_render_of_takeType (h : takeType whole input = .ok (t, rest)) :
    t.WellFormed ∧ input = t.render ++ rest := by
  induction input generalizing t rest with
  | nil => cases h
  | cons c input ih =>
      rw [takeType] at h
      split at h
      · rename_i primitive hletter
        cases h
        obtain ⟨hrender, hwell⟩ := render_of_ofLetter? hletter
        exact ⟨hwell, by rw [hrender, List.singleton_append]⟩
      split at h
      · rename_i hclass
        split at h
        · cases h
        · rename_i name after hsplit
          split at h
          · cases h
          · rename_i hname
            cases h
            obtain ⟨rfl, hend⟩ := eq_append_of_splitClassName hsplit
            refine ⟨⟨by rwa [String.toList_ofList], by rwa [String.toList_ofList]⟩, ?_⟩
            simp [JavaType.render, hclass]
      split at h
      · rename_i harray
        split at h
        · cases h
        · rename_i component after hcomponent
          split at h
          · cases h
          · rename_i hvoid
            cases h
            obtain ⟨hwell, rfl⟩ := ih hcomponent
            exact ⟨⟨hwell, hvoid⟩, by rw [JavaType.render, harray, List.cons_append]⟩
      · cases h

theorem takeType_eq_ok_iff :
    takeType whole input = .ok (t, rest) ↔ t.WellFormed ∧ input = t.render ++ rest :=
  ⟨eq_render_of_takeType, fun ⟨hwell, hinput⟩ => hinput ▸ takeType_render hwell whole rest⟩

/-- What a type is written as starts with the letter of its tag. -/
theorem tag_of_render (t : JavaType) :
    ∃ c letters, t.render = c :: letters ∧ TypeTag.ofChar? c = some t.tag := by
  cases t <;> exact ⟨_, _, rfl, rfl⟩

/-! ### Parameters -/

/-- No type starts with what closes a list of parameters. -/
theorem head_render_ne (t : JavaType) (rest later : List Char) : t.render ++ rest ≠ ')' :: later := by
  obtain ⟨c, letters, hrender, htag⟩ := tag_of_render t
  rintro h
  rw [hrender] at h
  cases h
  cases htag

theorem takeParameters_render (hts : ∀ t ∈ ts, t.WellFormed ∧ t ≠ .void) (whole : String)
    (rest : List Char) :
    takeParameters whole (ts.flatMap JavaType.render ++ ')' :: rest) = .ok (ts, rest) := by
  induction ts with
  | nil => simp [takeParameters]
  | cons t ts ih =>
      obtain ⟨⟨hwell, hvoid⟩, hts⟩ := List.forall_mem_cons.mp hts
      have htake := takeType_render hwell whole (ts.flatMap JavaType.render ++ ')' :: rest)
      have hopen := head_render_ne t (ts.flatMap JavaType.render ++ ')' :: rest)
      rw [List.flatMap_cons, List.append_assoc, takeParameters.eq_2 _ _ fun later => hopen later]
      split
      · rename_i hfailed
        cases htake.symm.trans hfailed
      · rename_i hread
        cases htake.symm.trans hread
        rw [if_neg hvoid, ih hts]

theorem eq_render_of_takeParameters (h : takeParameters whole input = .ok (ts, rest)) :
    (∀ t ∈ ts, t.WellFormed ∧ t ≠ .void) ∧ input = ts.flatMap JavaType.render ++ ')' :: rest := by
  fun_induction takeParameters whole input generalizing ts rest with
  | case1 input =>
      cases h
      exact ⟨List.forall_mem_nil _, rfl⟩
  | case2 | case3 | case4 => cases h
  | case5 input _ t after htake hvoid _ later rest' hrest ih =>
      cases h
      obtain ⟨hwell, rfl⟩ := eq_render_of_takeType htake
      obtain ⟨hlater, rfl⟩ := ih hrest
      refine ⟨List.forall_mem_cons.mpr ⟨⟨hwell, hvoid⟩, hlater⟩, ?_⟩
      rw [List.flatMap_cons, List.append_assoc]

end Signature

open Signature

/-! ### Whole texts -/

namespace JavaType

variable {s : String} {t : JavaType}

theorem parse_eq_ok_iff : parse s = .ok t ↔ t.WellFormed ∧ s.toList = t.render := by
  have hwhole : parse s = .ok t ↔ takeType s s.toList = .ok (t, []) := by
    rw [parse]
    split <;> simp_all
  rw [hwhole, takeType_eq_ok_iff, List.append_nil]

/-- The first letter of a signature tells the tag of its type. -/
theorem ofSignature_of_parse (h : parse s = .ok t) : TypeTag.ofSignature s = .ok t.tag := by
  obtain ⟨-, hrender⟩ := parse_eq_ok_iff.mp h
  obtain ⟨c, letters, hletters, htag⟩ := tag_of_render t
  rw [TypeTag.ofSignature, hrender, hletters]
  simp [htag]

/-- What is written as an array is one, and without its first letter it is the signature of the
array's components. -/
theorem componentSignature_of_parse (h : parse s = .ok t) (harray : s.toList.head? = some '[') :
    ∃ component signature, t = .array component ∧ componentSignature s = .ok signature ∧
      parse signature = .ok component := by
  obtain ⟨hwell, hrender⟩ := parse_eq_ok_iff.mp h
  cases t with
  | array component =>
      obtain ⟨c, letters, hletters, -⟩ := tag_of_render component
      refine ⟨component, String.ofList component.render, rfl, ?_, ?_⟩
      · simp [componentSignature, hrender, render, hletters]
      · exact parse_eq_ok_iff.mpr ⟨hwell.1, String.toList_ofList⟩
  | _ => simp [hrender, render] at harray

end JavaType

/-- A text is read as a type exactly if it is what the type is written as, and the type is one that
can be written.  Two other looks at a signature agree with the reader: the first letter tells the tag
of the type, and what follows the first letter of an array's signature is the signature of its
components. -/
theorem signature_read_iff_written (s : String) (t : JavaType) :
    (JavaType.parse s = .ok t ↔ t.WellFormed ∧ s = String.ofList t.render) ∧
      (JavaType.parse s = .ok t → TypeTag.ofSignature s = .ok t.tag ∧
        (s.toList.head? = some '[' → ∃ component signature, t = .array component ∧
          componentSignature s = .ok signature ∧ JavaType.parse signature = .ok component)) := by
  rw [← toList_eq_iff]
  refine ⟨JavaType.parse_eq_ok_iff, fun h => ⟨JavaType.ofSignature_of_parse h, ?_⟩⟩
  exact JavaType.componentSignature_of_parse h

/-! ### Methods -/

namespace MethodType

/-- The signature of a method. -/
def render (type : MethodType) : List Char :=
  '(' :: type.parameters.flatMap JavaType.render ++ ')' :: type.returnType.render

/-- The types of methods that a signature can write: a parameter is never `void`. -/
structure WellFormed (type : MethodType) : Prop where
  parameters : ∀ t ∈ type.parameters, t.WellFormed ∧ t ≠ .void
  returnType : type.returnType.WellFormed

variable {s : String} {type : MethodType}

theorem eq_render_of_parse (h : parse s = .ok type) :
    type.WellFormed ∧ s.toList = type.render := by
  rw [parse] at h
  split at h
  · rename_i input hopen
    split at h
    · cases h
    · rename_i parameters rest hparameters
      split at h
      · cases h
      · rename_i returnType hreturn
        cases h
        obtain ⟨hwell, hinput⟩ := eq_render_of_takeParameters hparameters
        obtain ⟨hreturn, hrest⟩ := JavaType.parse_eq_ok_iff.mp hreturn
        rw [String.toList_ofList] at hrest
        refine ⟨⟨hwell, hreturn⟩, ?_⟩
        rw [hopen, hinput, hrest, render, List.cons_append]
  · cases h

theorem parse_of_render (hwell : type.WellFormed) (h : s.toList = type.render) :
    parse s = .ok type := by
  have hparameters := takeParameters_render hwell.parameters s type.returnType.render
  have hreturn : JavaType.parse (String.ofList type.returnType.render) = .ok type.returnType :=
    JavaType.parse_eq_ok_iff.mpr ⟨hwell.returnType, String.toList_ofList⟩
  rw [parse, h, render, List.cons_append]
  simp [hparameters, hreturn]

theorem parse_eq_ok_iff : parse s = .ok type ↔ type.WellFormed ∧ s.toList = type.render :=
  ⟨eq_render_of_parse, fun ⟨hwell, hrender⟩ => parse_of_render hwell hrender⟩

/-- No two methods have the same signature. -/
theorem render_inj {other : MethodType} (hwell : type.WellFormed) (hother : other.WellFormed)
    (h : type.render = other.render) : type = other := by
  have htext : (String.ofList type.render).toList = type.render := String.toList_ofList
  have hparse := parse_of_render hwell htext
  rw [parse_of_render hother (htext.trans h)] at hparse
  exact (Except.ok.inj hparse).symm

end MethodType

/-! ### Slots of arguments -/

/-- The type is a primitive one that takes two slots. -/
def JavaType.isWide (t : JavaType) : Bool := t = .long || t = .double

theorem JavaType.slots_eq (t : JavaType) : t.slots = 1 + if t.isWide then 1 else 0 := by
  cases t <;> rfl

namespace Command.Method

open DebugAgent.Action Tracking

/-- Every argument takes a slot, the wide ones take a second one, and the receiver takes one. -/
theorem argumentSlots_eq (type : MethodType) (modifiers : Int32) :
    argumentSlots type modifiers = type.parameters.length + type.parameters.countP JavaType.isWide +
      if hasAny modifiers Access.isStatic then 0 else 1 := by
  obtain ⟨parameters, returnType⟩ := type
  dsimp only [argumentSlots]
  induction parameters with
  | nil => simp
  | cons t parameters ih =>
      rw [List.foldr_cons, ih, JavaType.slots_eq, List.length_cons, List.countP_cons]
      omega

/-- What the command tells of a method whose signature can be read. -/
theorem perform_variableTable {a : Agent} {refType : ObjectId} {object : HeapId} {method : MethodId}
    {decl : MethodDecl} {type : MethodType} {locals : List LocalVariable}
    (hlive : a.tracker.target? a.vm refType = some object) (hmethod : method ≠ 0)
    (hdecl : a.vm.methods.get? method = some decl)
    (htype : MethodType.parse decl.spec.signature = .ok type)
    (hlocals : a.vm.localVariableTable method = .ok locals) :
    ((variableTable refType method).perform a).1 =
      .ok ⟨argumentSlots type decl.spec.modifiers, locals.map variableRecord⟩ := by
  have hlocals' : (a.opened object).vm.localVariableTable method = .ok locals := hlocals
  have hdecl' : (a.opened object).vm.methodOf method = .ok decl := by
    rw [Vm.methodOf, show (a.opened object).vm.methods = a.vm.methods from rfl, hdecl]
  simp [variableTable, withMethod, withClass, perform_withRef_live hlive, perform_bind, checkMethod,
    hmethod, ask, Action.ofExcept, hlocals', Vm.methodName, Vm.methodModifiers, hdecl', htype,
    Except.map]

end Command.Method

/-- A text is read as the types of a method exactly if it is what the method is written as and no
parameter is `void`, and no other method is written like this, whatever parentheses the names of
classes have in them.  For a method with such a signature, whose variables can be told, the command
tells that the arguments take one slot each, a second one for each `long` and `double` that is not
part of an array, and one more unless the method is static. -/
theorem method_signature_read_iff_written (type : MethodType) :
    (∀ s, MethodType.parse s = .ok type ↔ type.WellFormed ∧ s = String.ofList type.render) ∧
      (∀ other : MethodType, type.WellFormed → other.WellFormed → type.render = other.render →
        type = other) ∧
      ∀ (a : Agent) (caller : NativeThread) (refType : ObjectId) (method : MethodId)
        (decl : MethodDecl) (locals : List LocalVariable),
        a.vm.attachFails = false → (a.tracker.target? a.vm refType).isSome → method ≠ 0 →
        a.vm.methods.get? method = some decl → type.WellFormed →
        decl.spec.signature = String.ofList type.render →
        a.vm.localVariableTable method = .ok locals →
        (Agent.serve caller (.variableTable refType method) a).1 = .ok (.variableTable
          { argCount := type.parameters.length + type.parameters.countP JavaType.isWide +
              if hasAny decl.spec.modifiers Access.isStatic then 0 else 1
            entries := locals.map Command.Method.variableRecord }) := by
  refine ⟨fun s => ?_, fun other hwell hother => MethodType.render_inj hwell hother, ?_⟩
  · rw [← toList_eq_iff]
    exact MethodType.parse_eq_ok_iff
  · intro a caller refType method decl locals hfails hlive hmethod hdecl hwell hsignature hlocals
    obtain ⟨object, hlive⟩ := Option.isSome_iff_exists.mp hlive
    let near := a.setVm (a.vm.attach caller).2
    have hnear : near.tracker.target? near.vm refType = some object := by
      have htarget : near.vm.target? = a.vm.target? := funext (target?_attach a.vm caller)
      rwa [Tracker.target?, htarget]
    have hmethods : near.vm.methods = a.vm.methods := by
      rw [show near.vm = (a.vm.attach caller).2 from rfl, Vm.attach]
      split <;> rfl
    have htable : near.vm.localVariableTable method = a.vm.localVariableTable method := by
      rw [show near.vm = (a.vm.attach caller).2 from rfl, Vm.attach]
      split <;> rfl
    have htype : MethodType.parse decl.spec.signature = .ok type :=
      MethodType.parse_of_render hwell (toList_eq_iff.mpr hsignature)
    have hperform := Command.Method.perform_variableTable hnear hmethod (hmethods ▸ hdecl) htype
      (htable.trans hlocals)
    rw [Command.Method.argumentSlots_eq] at hperform
    rw [Agent.serve_eq (by simp), answer_of_attaching hfails]
    dsimp only
    rw [Command.ofClient, Action.perform_map, hperform]
    simp [Except.map, apply_ite]

/-- An array of wide values takes one slot, and the letters that close a list of parameters may stand
in the name of a class. -/
theorem argument_slots_of_sum :
    let sum : MethodSpec := { name := "sum", signature := "([JLa)(b;JD)V" }
    let past : Past :=
      { steps := [.defineClass "LMain;", .addMethod 9 sum]
        config := {}
        incidents := [.op (.command (.client 0) (.classesBySignature "LMain;"))] }
    (Agent.serve (.client 1) (.variableTable 1 0x1000) past.agent).1 =
      .ok (.variableTable { argCount := 7, entries := [] }) := by
  intro sum past
  obtain ⟨-, -, hslots⟩ := method_signature_read_iff_written
    ⟨[.array .long, .object "a)(b", .long, .double], .void⟩
  have hwell : MethodType.WellFormed
      ⟨[.array .long, .object "a)(b", .long, .double], .void⟩ :=
    ⟨by simp [JavaType.WellFormed], trivial⟩
  have hdeclared : (past.agent.vm.methods.get? 0x1000).map
      (fun decl => (decl.spec.signature, decl.spec.modifiers)) =
        some (sum.signature, sum.modifiers) := by decide +kernel
  obtain ⟨decl, hdecl, hspec⟩ := Option.map_eq_some_iff.mp hdeclared
  obtain ⟨hsignature, hmodifiers⟩ := Prod.mk.inj hspec
  have hanswer := hslots past.agent (.client 1) 1 0x1000 decl [] (by decide +kernel)
    (by decide +kernel) (by decide) hdecl hwell (hsignature.trans (by decide +kernel))
    (by decide +kernel)
  rw [hanswer, hmodifiers]
  decide +kernel

end DebugAgent

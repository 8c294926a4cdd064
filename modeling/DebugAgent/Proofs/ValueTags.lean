import DebugAgent.Proofs.Settled

/-!
# The tags of values

Four commands tell values, and each of them reads in its own way; but every value that they tell is
stored somewhere and told at a declared type.  A primitive value is told at this type or not at all,
null as an array or an object, and an object by the identifier that it bears, with the tag of its
class.

An identifier designates an object that bears it, too.  One agent on a machine of its own puts an
identifier on one object only, so this is the object that the tag is about.  Where an earlier agent
has left its tags behind, two objects may bear the same identifier.
-/

namespace DebugAgent

open DebugAgent.Action Command Tracking Reading

/-! ### Objects that identifiers designate -/

/-- Whatever an identifier designates bears it. -/
structure Agent.Marks (a : Agent) : Prop where
  recognises : ∀ {id object}, a.Designates id object → a.Recognises object id

section Marks

variable {a b : Agent} {id : ObjectId} {object other : HeapId}

theorem Agent.Designates.unique (h : a.Designates id object) (h' : a.Designates id other) :
    object = other :=
  Option.some.inj (h.target?.symm.trans h'.target?)

theorem designates_enrol (a : Agent) (other : HeapId) :
    (a.enrol other).Designates a.tracker.nextId other := by
  refine ⟨⟨a.vm.lastRef + 8⟩, ?_, Vm.holdsGlobal_newRef _ other⟩
  exact (held?_enrol other a (.identifier a.tracker.nextId)).trans (if_pos rfl)

theorem knows_enrol : (a.enrol other).Knows id ↔ id = a.tracker.nextId ∨ a.Knows id := by
  have hheld : (a.enrol other).tracker.global? id =
      if Holder.identifier id = .identifier a.tracker.nextId then some ⟨a.vm.lastRef + 8⟩
      else a.tracker.global? id := held?_enrol other a (.identifier id)
  simp only [Holder.identifier.injEq] at hheld
  rw [knows_iff, knows_iff, hheld]
  split <;> simp [*]

theorem HoldsSoundly.exists_designates (hs : HoldsSoundly a) (hknows : a.Knows id) :
    ∃ object, a.Designates id object := by
  obtain ⟨global, hglobal⟩ := Option.isSome_iff_exists.mp (knows_iff.mp hknows)
  obtain ⟨object, hheld⟩ := hs.valid (x := .identifier id) hglobal
  exact ⟨object, global, hglobal, hheld⟩

namespace Agent.Marks

theorem start (vm : Vm) (config : Config) : (Agent.start vm config).Marks := by
  refine ⟨fun hnamed => ?_⟩
  obtain ⟨global, hglobal, -⟩ := hnamed
  cases hglobal

theorem quiet (h : a.Marks) (hs : HoldsSoundly a) (hquiet : Quiet a b) : b.Marks := by
  refine ⟨fun {id object} hnamed => ?_⟩
  obtain ⟨global, hglobal⟩ := Option.isSome_iff_exists.mp (knows_iff.mp hnamed.knows)
  have hknows : a.Knows id := knows_iff.mpr (Option.isSome_of_eq_some (hquiet.global? hglobal))
  obtain ⟨before, hbefore⟩ := hs.exists_designates hknows
  rw [hnamed.unique (hbefore.quiet hquiet hnamed.knows)]
  exact (h.recognises hbefore).quiet hquiet hnamed.knows

/-- The object that becomes known bears the new identifier, and no other object loses its own. -/
theorem enrol (h : a.Marks) (ho : InOrder a) (hs : HoldsSoundly a) {tag : Int}
    (htag : a.vm.tagAt? other = some tag)
    (hnew : 0 < tag → a.tracker.entries.get? tag.toNat = none) : (a.enrol other).Marks := by
  refine ⟨fun {id object} hnamed => ?_⟩
  by_cases hknows : a.Knows id
  · obtain ⟨before, hbefore⟩ := hs.exists_designates hknows
    rw [hnamed.unique (hbefore.enrol ho other)]
    exact (h.recognises hbefore).enrol htag hnew
  · obtain rfl : id = a.tracker.nextId := (knows_enrol.mp hnamed.knows).resolve_right hknows
    rw [hnamed.unique (designates_enrol a other)]
    refine ⟨?_, ho.ids.pos, hnamed.knows⟩
    refine (Vm.tagAt?_setTagAt a.vm other a.tracker.nextId other).trans ?_
    rw [if_pos rfl, htag]
    rfl

theorem unfolds (h : a.Marks) (ho : InOrder a) (hs : HoldsSoundly a) (hunfolds : Unfolds a b) :
    b.Marks := by
  induction hunfolds with
  | refl => exact h
  | tail hbefore hstep ih =>
      have hmid := hs.unfolds ho.toOrderly hbefore
      rcases hstep with hchange | hlast
      · rcases hchange.quiet_or_enrol hmid with hquiet | ⟨other, tag, htag, hnew, rfl⟩
        · exact ih.quiet hmid hquiet
        · exact ih.enrol (ho.unfolds hbefore) hmid htag hnew
      · exact ih.quiet hmid hlast.quiet

end Agent.Marks

/-- One agent on a machine of its own has put an identifier on the object that it designates. -/
theorem Sound.designates_of_recognises (hs : Sound a) (h : a.Recognises object id) :
    a.Designates id object := by
  obtain ⟨global, hglobal⟩ := Option.isSome_iff_exists.mp (knows_iff.mp h.knows)
  exact ⟨global, hglobal, hs.designates hglobal h.tag⟩

theorem Agent.Reachable.marks (h : a.Reachable) : a.Marks := by
  induction h with
  | start config => exact .start _ config
  | restart _ config _ => exact .start _ config
  | @apply b hb op _ ih =>
      exact ih.unfolds hb.inOrder hb.consistent.holds (leads_apply op hb.orderly).unfolds

end Marks

/-! ### Values by themselves -/

/-- The tag of a value announces its data, and null has no tag of a special class. -/
structure Value.WellTagged (value : Value) : Prop where
  notVoid : value.tag ≠ .void ∧ value.data ≠ .void
  agrees : ValueData.agrees value.tag value.data
  null : value.data = .object 0 → value.tag = .array ∨ value.tag = .object

section WellTagged

variable {tag : TypeTag} {v : Primitive} {value : Value}

theorem isObject_ofClass (signature : String) : (TypeTag.ofClass signature).isObject := by
  simp only [TypeTag.ofClass]
  split
  iterate 5
    · rfl
  · split <;> rfl

theorem wellTagged_ofObject {tagged : TaggedObjectId} (hobject : tagged.tag.isObject)
    (hnull : tagged.objectId = 0 → tagged.tag = .array ∨ tagged.tag = .object) :
    (Value.ofObject tagged).WellTagged := by
  obtain ⟨tag, id⟩ := tagged
  refine ⟨⟨?_, fun hvoid => by cases hvoid⟩, ?_, fun hdata => hnull (ValueData.object.inj hdata)⟩
  · rintro rfl
    cases hobject
  · cases tag <;> first | rfl | cases hobject

/-- What a primitive value is read as is what the tag announces. -/
theorem agrees_narrow {data : ValueData} (hnarrow : narrow tag v = .ok data) :
    ValueData.agrees tag data ∧ data ≠ .void := by
  simp only [narrow] at hnarrow
  split at hnarrow
  iterate 4
    · cases hnarrow
      exact ⟨rfl, by simp⟩
  · split at hnarrow
    · rename_i hagrees
      cases hnarrow
      exact ⟨hagrees, by cases v <;> simp [Primitive.data]⟩
    · cases hnarrow

theorem wellTagged_primitiveValue (hvalue : primitiveValue tag v = .ok value) :
    value.WellTagged := by
  have hids := ids_primitiveValue hvalue
  rw [primitiveValue] at hvalue
  obtain ⟨data, hnarrow, rfl⟩ : ∃ data, narrow tag v = .ok data ∧ (⟨tag, data⟩ : Value) = value := by
    cases hnarrow : narrow tag v with
    | error cause =>
        rw [hnarrow] at hvalue
        cases hvalue
    | ok data =>
        rw [hnarrow] at hvalue
        exact ⟨data, rfl, Except.ok.inj hvalue⟩
  obtain ⟨hagrees, hdata⟩ := agrees_narrow hnarrow
  refine ⟨⟨?_, hdata⟩, hagrees, fun hnull => ?_⟩
  · rintro rfl
    cases data <;> first | exact hdata rfl | cases hagrees
  · simp [Value.ids, Value.objectId?, show data = .object 0 from hnull] at hids

end WellTagged

/-! ### Values that are told -/

section Settles

variable {a : Agent} {tag : TypeTag} {stored : Stored} {value : Value}

theorem Agent.Settles.wellTagged (h : a.Settles tag stored value) : value.WellTagged := by
  have htold := h.told
  rcases stored with v | _ | object
  · exact wellTagged_primitiveValue htold
  · cases htold
    refine wellTagged_ofObject ?_ fun _ => ?_
    · dsimp only
      split <;> rfl
    · dsimp only
      split <;> simp
  · obtain ⟨body, -, -, rfl⟩ := told_object_eq_ok.mp htold
    have hpos := (h.recognised object List.mem_cons_self).pos
    exact wellTagged_ofObject (isObject_ofClass body.signature)
      fun hzero => absurd hzero (Nat.ne_of_gt hpos)

/-- A value that refers to an object has been told of one that bears the identifier, with the tag of
its class. -/
theorem Agent.Settles.object {id : ObjectId} (h : a.Settles tag stored value)
    (hdata : value.data = .object id) (hid : id ≠ 0) : ∃ object body,
    a.Recognises object id ∧ a.vm.runtimeClass? object = some body ∧
      value.tag = .ofClass body.signature := by
  have htold := h.told
  rcases stored with v | _ | object
  · have hids := ids_primitiveValue htold
    simp [Value.ids, Value.objectId?, hdata] at hids
  · cases htold
    cases hdata
    exact absurd rfl hid
  · obtain ⟨body, hbody, -, rfl⟩ := told_object_eq_ok.mp htold
    cases hdata
    exact ⟨object, body, h.recognised object List.mem_cons_self, hbody, rfl⟩

end Settles

/-! ### Commands that tell values -/

theorem forall_mem_of_forall₂ {ι α : Type} {P : α → Prop} {is : List ι} {rs : List α}
    (h : List.Forall₂ (fun _ r => P r) is rs) : ∀ r ∈ rs, P r := by
  induction h with
  | nil => exact fun _ hmem => by cases hmem
  | cons hone _ ih => exact List.forall_mem_cons.mpr ⟨hone, ih⟩

/-- The value stands for something that is stored. -/
def Agent.Vouches (a : Agent) (value : Value) : Prop := ∃ tag stored, a.Settles tag stored value

theorem Agent.Vouches.recalls {a b : Agent} {value : Value} (h : a.Vouches value)
    (hrecalls : Recalls a b) : b.Vouches value := by
  obtain ⟨tag, stored, hsettled⟩ := h
  exact ⟨tag, stored, hsettled.recalls hrecalls⟩

/-- A command leaves the agent in shape when it succeeds, and the agent vouches for the values in its
result. -/
structure Command.Tells {α : Type} (x : Command α) (values : α → List Value) : Prop where
  inShape : ∀ {a r b}, a.InShape → x.perform a = (.ok r, b) → b.InShape
  vouches : ∀ {a r b}, a.InShape → x.perform a = (.ok r, b) → ∀ value ∈ values r, b.Vouches value

namespace Command.Tells

variable {α β ι : Type} {x : Command α} {silent values : α → List Value} {told : β → List Value}

theorem of_looks (hx : Looks Control.Any x) : x.Tells fun _ => [] where
  inShape := fun {a r b} hshape hperform => by
    have hafter := hshape.looks hx
    rwa [hperform] at hafter
  vouches := fun _ _ _ hmem => by cases hmem

theorem of_opens {owned : α → List Handle} (hx : Opens x owned) : x.Tells fun _ => [] where
  inShape := fun {a r b} hshape hperform => by
    have hmakes : x.Makes (Inspection Control.Any) := hx.makes
    have hevolves := evolves_of_inspections hshape.toOrderly (hmakes a)
    have horder := hshape.toInOrder.unfolds hevolves.unfolds
    have hintact := (hx.safe a hshape.toIntact).after
    rw [hperform] at horder hintact
    exact ⟨horder, hintact⟩
  vouches := fun _ _ _ hmem => by cases hmem

/-- What has been told before the last command is forgotten. -/
theorem after {f : α → Command β} (hx : x.Tells silent) (hf : ∀ r, (f r).Tells told) :
    (x >>= f).Tells told where
  inShape := fun {a r b} hshape hperform => by
    obtain ⟨first, near, hfirst, hrest⟩ := perform_bind_ok hperform
    exact (hf first).inShape (hx.inShape hshape hfirst) hrest
  vouches := fun {a r b} hshape hperform => by
    obtain ⟨first, near, hfirst, hrest⟩ := perform_bind_ok hperform
    exact (hf first).vouches (hx.inShape hshape hfirst) hrest

theorem refuse (cause : ProtocolError) :
    Command.Tells (Action.refuse cause : Command α) values where
  inShape := fun _ hperform => by cases hperform
  vouches := fun _ hperform => by cases hperform

theorem ite {c : Prop} [Decidable c] {y : Command α} (hx : x.Tells values) (hy : y.Tells values) :
    (if c then x else y).Tells values := by
  split
  · exact hx
  · exact hy

theorem withLocals (hs : List Handle) (hx : x.Tells values) :
    (Command.withLocals hs x).Tells values := by
  have hinner : ∀ {a r b}, (Command.withLocals hs x).perform a = (.ok r, b) →
      ∃ near, x.perform a = (.ok r, near) ∧ b = near.setVm (hs.foldl dropLocal near.vm) := by
    intro a r b hperform
    rw [perform_withLocals] at hperform
    obtain ⟨hresult, hafter⟩ := Prod.mk.inj hperform
    exact ⟨_, Prod.ext hresult rfl, hafter.symm⟩
  refine ⟨fun hshape hperform => ?_, fun hshape hperform value hmem => ?_⟩
  · obtain ⟨near, hone, rfl⟩ := hinner hperform
    have hnear := hx.inShape hshape hone
    exact hnear.setVm ((Vm.keeps_dropLocals hs _).toAges.bounded hnear.refs)
      (closed_dropLocals hs hnear.closed)
  · obtain ⟨near, hone, rfl⟩ := hinner hperform
    have hnear := hx.inShape hshape hone
    exact (hx.vouches hshape hone value hmem).recalls (recalls_dropLocals hnear.toInOrder hs)

theorem mapM {f : ι → Command Value} (hlooks : ∀ i, Looks Control.Any (f i))
    (hf : ∀ i, (f i).Tells fun value => [value]) (is : List ι) :
    (is.mapM f).Tells fun values => values where
  inShape := (of_looks (looks_mapM hlooks is)).inShape
  vouches := fun hshape hperform => forall_mem_of_forall₂ <|
    mapM_settles (P := fun _ => True) (S := fun _ b value => b.Vouches value) hlooks
      (fun _ _ _ => trivial)
      (fun _ _ _ _ _ hx hshape h => h.recalls (.looks hshape.toInOrder hx))
      (fun i _ _ value _ hshape _ hone => (hf i).vouches hshape hone value List.mem_cons_self)
      hshape trivial hperform

end Command.Tells

section Reading

variable {a b : Agent} {h : Handle} {tag : TypeTag} {raw : RawValue} {value : Value}

/-- A reference that is not valid is not tracked. -/
theorem trackObject_invalid (hc : a.vm.Closed) (hnull : h.isNull = false)
    (hinvalid : a.vm.target? h = none) (tag : TypeTag) :
    ((trackObject h tag).perform a).1 = .error (.refused .invalidObject) := by
  have hbehind : a.vm.object? h = none := by
    rw [Vm.object?, hinvalid]
    rfl
  have hclass : (native (Vm.objectClassRef h)).perform a = (.ok .null, a) := by
    simp [native, Vm.objectClassRef, perform_bind, Vm.perform_objectBehind hc, hbehind, Agent.setVm]
  have hnoClass : Handle.null.isNull = true := rfl
  simp [trackObject, hnull, perform_bind, hclass, requireRef, hnoClass]

/-- What is told stands for something. -/
theorem behind?_of_wrap (hc : a.vm.Closed) (hwrap : (wrap tag raw).perform a = (.ok value, b)) :
    ∃ stored, a.vm.behind? raw = some stored := by
  cases raw with
  | primitive v => exact ⟨.primitive v, rfl⟩
  | object h =>
      cases hnull : h.isNull with
      | true => exact ⟨.reference none, by simp [Vm.behind?, hnull]⟩
      | false =>
          cases htarget : a.vm.target? h with
          | some object => exact ⟨.reference (some object), by simp [Vm.behind?, hnull, htarget]⟩
          | none =>
              have hresult : ((wrap tag (.object h)).perform a).1 = .ok value :=
                congrArg Prod.fst hwrap
              have hrefused := trackObject_invalid hc hnull htarget tag
              rw [wrap, perform_withLocal, bind_pure_comp, perform_map, hrefused] at hresult
              cases hresult

namespace Command.Tells

theorem wrap (tag : TypeTag) (raw : RawValue) : (wrap tag raw).Tells fun value => [value] where
  inShape := by
    cases raw with
    | primitive v => exact (of_looks (looks_ofExcept _)).inShape
    | object h =>
        refine (withLocals [h] (of_looks ?_)).inShape
        exact .bind (looks_trackObject h tag) fun _ => .pure _
  vouches := fun {a value b} hshape hperform told hmem => by
    cases List.mem_singleton.mp hmem
    obtain ⟨stored, hbehind⟩ := behind?_of_wrap hshape.closed hperform
    exact ⟨tag, stored, wrap_settles hshape hbehind hperform⟩

theorem readField (owner : FieldOwner) (field : FieldId) (signature : String) :
    (readField owner field signature).Tells fun value => [value] := by
  refine after (of_looks (looks_ofExcept _)) fun tag => ?_
  refine after (of_looks (looks_ofExcept _)) fun kind => ?_
  cases owner with
  | inClass cls => exact after (of_opens (.staticField cls field kind)) (wrap tag)
  | inObject object => exact after (of_opens (.instanceField object field kind)) (wrap tag)

theorem readElement (array : Handle) (tag : TypeTag) (index : Int) :
    (readElement array tag index).Tells fun value => [value] :=
  after (of_opens (.arrayElement array index)) fun h => wrap tag (.object h)

/-- Values of a region are primitive. -/
theorem regionValues (tag : TypeTag) (region : List RawValue) :
    Command.Tells (Action.ofExcept (region.mapM (regionValue tag)) : Command _)
      fun values => values where
  inShape := (of_looks (looks_ofExcept _)).inShape
  vouches := fun {a values b} _ hperform => by
    obtain ⟨hvalues, -⟩ := ok_of_inspect hperform
    refine forall_mem_of_forall₂ ((mapM_eq_ok_iff.mp hvalues).imp fun raw value hone => ?_)
    cases raw with
    | primitive v => exact ⟨tag, .primitive v, hone, fun _ hmem => by cases hmem⟩
    | object h => cases hone

theorem readArray (array : Handle) (signature : String) (first length : Int) :
    (readArray array signature first length).Tells fun values => values := by
  refine after (of_looks (looks_ofExcept _)) fun component => ?_
  refine after (of_looks (looks_ofExcept _)) fun tag => ite ?_ ?_
  · exact mapM (fun _ => looks_readElement array tag _) (fun _ => readElement array tag _) _
  · refine after (of_looks (looks_ofExcept _)) fun kind => ?_
    refine after (of_looks (.arrayRegion array kind first length)) fun region => ?_
    exact after (of_looks (looks_guard _ _)) fun _ => regionValues tag region

theorem readLocal (thread : Handle) (depth slot : Int) (signature : String) :
    (readLocal thread depth slot signature).Tells fun value => [value] :=
  after (of_looks (looks_ofExcept _)) fun tag => after (of_looks (looks_ofExcept _)) fun kind =>
    after (of_opens (.localVariable thread depth slot kind)) (wrap tag)

/-! ### Ways to the values -/

variable {α : Type} {values : α → List Value}

theorem withRef (id : ObjectId) (cause : ProtocolError) {x : Handle → Command α}
    (hx : ∀ h, (x h).Tells values) : (withRef id cause x).Tells values :=
  after (of_opens (.acquire id)) fun h => withLocals [h] <|
    after (of_looks (looks_requireRef h cause)) fun _ => hx h

theorem withThread (id : ObjectId) {x : Handle → Command α} (hx : ∀ h, (x h).Tells values) :
    (withThread id x).Tells values :=
  after (of_opens (.acquire id)) fun h => withLocals [h] <|
    after (of_looks (looks_see _)) fun _ => after (of_looks (looks_guard _ _)) fun _ => hx h

theorem withClassOf (object : Handle) {x : Handle → Command α} (hx : ∀ h, (x h).Tells values) :
    (Object.withClassOf object x).Tells values :=
  after (of_opens (.objectClass object)) fun cls => withLocals [cls] <|
    after (of_looks (looks_requireRef cls _)) fun _ => hx cls

theorem valueFrom (object : Handle) (field : FieldId) (depth : Nat) (cls : Handle) :
    (Object.valueFrom object field depth cls).Tells fun value => [value] := by
  induction depth generalizing cls with
  | zero => exact withLocals [cls] (refuse .invalidFieldId)
  | succ depth ih =>
      refine withLocals [cls] (after (of_looks (looks_requireRef cls _)) fun _ => ?_)
      refine after (of_looks (looks_tryAsk _)) fun name? => ?_
      cases name? with
      | ok name => exact after (of_looks (looks_ask _)) fun _ => readField _ field name.2
      | error _ => exact after (of_opens (.superclass cls)) ih

theorem objectValues (id : ObjectId) (fields : List FieldId) :
    (Object.values id fields).Tells fun values => values := by
  refine withRef id _ fun object => withClassOf object fun cls => ?_
  refine mapM (Object.looks_value object cls) (fun field => ?_) fields
  refine after (of_looks (looks_see _)) fun depth => ?_
  exact after (of_opens (.another cls)) (valueFrom object field depth)

theorem staticValues (id : ObjectId) (fields : List FieldId) :
    (Class.values id fields).Tells fun values => values := by
  refine withRef id _ fun cls => mapM (Class.looks_value cls) (fun field => ?_) fields
  refine after (of_looks (looks_ask _)) fun name => after (of_looks (looks_ask _)) fun _ => ?_
  exact after (of_looks (looks_guard _ _)) fun _ => readField _ field name.2

theorem arrayValues (id : ObjectId) (first length : Int) :
    (Object.arrayValues id first length).Tells fun values => values := by
  refine withRef id _ fun array => ?_
  refine after (of_looks (Object.looks_arraySignature array)) fun signature => ?_
  refine after (of_looks (.arrayLength array)) fun _ => after (of_looks (looks_guard _ _)) fun _ => ?_
  exact after (of_looks (looks_guard _ _)) fun _ => readArray array signature first length

theorem frameValues (id : ObjectId) (frame : FrameId) (slots : List Int) :
    (Frame.values id frame slots).Tells fun values => values := by
  refine withThread id fun thread => after (of_looks (looks_ofExcept _)) fun depth => ?_
  refine after (of_looks (looks_ask _)) fun position => after (of_looks (looks_ask _)) fun entries => ?_
  refine mapM (Frame.looks_value thread depth position.2 entries) (fun slot => ?_) slots
  exact after (of_looks (looks_require _ _)) fun entry => readLocal thread depth slot entry.signature

end Command.Tells

end Reading

/-! ### What the client is told -/

/-- The command asks for values. -/
def ClientCommand.readsValues : ClientCommand → Bool
  | .objectValues _ _ | .staticValues _ _ | .arrayValues _ _ _ | .frameValues _ _ _ => true
  | _ => false

section Served

variable {a b : Agent} {caller : NativeThread} {command : ClientCommand} {reply : Reply}

theorem tells_ofClient (hreads : command.readsValues) (caller : NativeThread) :
    ∃ x : Command (List Value), ofClient caller command = .values <$> x ∧
      x.Tells fun values => values := by
  cases command with
  | objectValues id fields => exact ⟨_, rfl, .objectValues id fields⟩
  | staticValues id fields => exact ⟨_, rfl, .staticValues id fields⟩
  | arrayValues id first length => exact ⟨_, rfl, .arrayValues id first length⟩
  | frameValues id frame slots => exact ⟨_, rfl, .frameValues id frame slots⟩
  | _ => cases hreads

/-- The agent vouches for every value in an answer. -/
theorem vouches_serve (hshape : a.InShape) (hreads : command.readsValues)
    (hserve : Agent.serve caller command a = (.ok reply, b)) :
    ∃ values, reply = .values values ∧ ∀ value ∈ values, b.Vouches value := by
  obtain ⟨x, hcommand, htells⟩ := tells_ofClient hreads caller
  have hnot : command ≠ .capabilities := by
    rintro rfl
    cases hreads
  rw [Agent.serve_eq hnot, hcommand] at hserve
  obtain ⟨_, near, hattach, htold⟩ := perform_bind_ok (perform_of_answer hserve)
  rw [map_eq_pure_bind] at htold
  obtain ⟨values, last, hvalues, hlast⟩ := perform_bind_ok htold
  cases hlast
  have hattaches : Looks Control.Any (Command.attach caller) := .attach trivial caller
  have hnear := (Command.Tells.of_looks hattaches).inShape hshape hattach
  exact ⟨values, rfl, htells.vouches hnear hvalues⟩

end Served

/-- Values that are told, along whichever way they are read and whatever is stored there.  None is
void, the data of each is what its tag announces, and null has the tag of an array or an object.  A
value that refers to an object has an identifier in use, and the tag of the class of an object that
bears the identifier; the object that the identifier designates bears it, too.  For an agent with a
machine of its own they are the same object. -/
theorem values_tagged_by_class {a b : Agent} (h : a.Reachable) {caller : NativeThread}
    {command : ClientCommand} (hreads : command.readsValues) {reply : Reply}
    (hserve : Agent.serve caller command a = (.ok reply, b)) :
    ∃ values, reply = .values values ∧ ∀ value ∈ values, value.WellTagged ∧
      ∀ id, value.data = .object id → id ≠ 0 → ∃ object body designated,
        b.Recognises object id ∧ b.vm.runtimeClass? object = some body ∧
        value.tag = .ofClass body.signature ∧
        b.tracker.target? b.vm id = some designated ∧ b.Recognises designated id ∧
        ((∃ steps config ops, a = Agent.reached steps config ops) → designated = object) := by
  have hb : a.apply (.command caller command) = b := congrArg Prod.snd hserve
  have hreachable : b.Reachable := hb ▸ h.apply _ Vm.has_nil
  obtain ⟨values, hreply, hvouches⟩ := vouches_serve h.inShape hreads hserve
  refine ⟨values, hreply, fun value hmem => ?_⟩
  obtain ⟨tag, stored, hsettled⟩ := hvouches value hmem
  refine ⟨hsettled.wellTagged, fun id hdata hid => ?_⟩
  obtain ⟨object, body, hknown, hbody, htag⟩ := hsettled.object hdata hid
  obtain ⟨designated, hnamed⟩ := hreachable.consistent.holds.exists_designates hknown.knows
  refine ⟨object, body, designated, hknown, hbody, htag, hnamed.target?,
    hreachable.marks.recognises hnamed, ?_⟩
  rintro ⟨steps, config, ops, rfl⟩
  have hsound : Sound b := by
    rw [← hb]
    exact (sound_reached steps config ops).run [.command caller command]
  exact hnamed.unique (hsound.designates_of_recognises hknown)

/-- A class with a static field that holds a thread.  The client knows the thread as object 1 and the
class as object 3. -/
def holding : Agent :=
  Agent.reached [] {}
    [.setup (.spawnThread "main"), .setup (.defineClass "LHolder;"),
      .setup (.addStaticField 10 "owner" "Ljava/lang/Thread;" (.reference (some 9))),
      .command (.client 0) .allThreads, .command (.client 0) (.classesBySignature "LHolder;")]

theorem reachable_holding : holding.Reachable := by
  apply Agent.Reachable.run (.start {})
  decide +kernel

/-- The value of the field is told as a thread, and its identifier designates this thread. -/
theorem field_told_as_thread : holding.Reachable ∧ ∃ b body,
    Agent.serve (.client 0) (.staticValues 3 [0x100]) holding =
      (.ok (.values [⟨.thread, .object 1⟩]), b) ∧
    b.tracker.target? b.vm 1 = some 9 ∧ b.vm.runtimeClass? 9 = some body ∧
    TypeTag.ofClass body.signature = .thread := by
  have htold : (Agent.serve (.client 0) (.staticValues 3 [0x100]) holding).1 =
      .ok (.values [⟨.thread, .object 1⟩]) := by decide +kernel
  have hthread : (fun b : Agent => b.tracker.target? b.vm 1)
      (Agent.serve (.client 0) (.staticValues 3 [0x100]) holding).2 = some 9 := by decide +kernel
  cases hserve : Agent.serve (.client 0) (.staticValues 3 [0x100]) holding with
  | mk result b =>
      rw [hserve] at htold hthread
      cases htold
      obtain ⟨values, hvalues, htagged⟩ := values_tagged_by_class reachable_holding (by rfl) hserve
      cases hvalues
      obtain ⟨object, body, designated, -, hbody, htag, htarget, -, hown⟩ :=
        (htagged _ List.mem_cons_self).2 1 rfl (by decide)
      obtain rfl := hown ⟨[], {}, _, rfl⟩
      cases htarget.symm.trans hthread
      exact ⟨reachable_holding, b, body, rfl, hthread, hbody, htag.symm⟩

/-- The next agent on this machine has handed out identifier 1 for a thread group.  It tells the
value of the field as a thread, by the tag that the thread still bears, and this identifier
designates the group. -/
theorem thread_told_by_id_of_group :
    let next := (Agent.start holding.vm {}).run [.command (.client 0) .topLevelThreadGroups,
      .command (.client 0) (.classesBySignature "LHolder;")]
    let outcome := Agent.serve (.client 0) (.staticValues 2 [0x100]) next
    next.Reachable ∧ outcome.1 = .ok (.values [⟨.thread, .object 1⟩]) ∧
      outcome.2.tracker.target? outcome.2.vm 1 = some Vm.systemGroup ∧
      ∃ body, outcome.2.vm.runtimeClass? Vm.systemGroup = some body ∧
        TypeTag.ofClass body.signature = .threadGroup := by
  intro next outcome
  have hreachable : next.Reachable := by
    apply Agent.Reachable.run (reachable_holding.restart {})
    decide +kernel
  have hclass : (outcome.2.vm.runtimeClass? Vm.systemGroup).map
      (fun body => TypeTag.ofClass body.signature) = some .threadGroup := by decide +kernel
  exact ⟨hreachable, by decide +kernel, by decide +kernel, Option.map_eq_some_iff.mp hclass⟩

end DebugAgent

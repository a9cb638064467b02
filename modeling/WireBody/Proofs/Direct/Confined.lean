import Mathlib.Logic.Relation
import WireBody.Proofs.Direct.Agreement
import WireBody.Proofs.Request.View
import WireBody.Proofs.Service.Sound
import WireBody.Proofs.Service.Supported

/-!
# A body shows its members alone

Two requests that agree on what the plan of a program looks at have the same body or fail with the
same error.  So what travels elsewhere in a request stays out of the body, at any depth, and the
order in which fields were set cannot be told from it.

Main statement: `serialize_eq_of_agree`.
-/

set_option autoImplicit false

namespace WireBody.Direct

open WireBody.Compile
open WireBody.Program
open WireBody.Request
open WireBody.Run
open WireBody.Service

variable {g : Graph}

/-! ## Values -/

theorem textOf_eq_of_shell {v w : Value} (same : v.shell = w.shell) (name : String) :
    textOf name v = textOf name w := by
  cases v <;> cases w <;> cases same <;> rfl

theorem booleanOf_eq_of_shell {v w : Value} (same : v.shell = w.shell) (name : String) :
    booleanOf name v = booleanOf name w := by
  cases v <;> cases w <;> cases same <;> rfl

theorem rawBytes_eq_of_shell {v w : Value} (same : v.shell = w.shell) (name : String) :
    rawBytes name (some v) = rawBytes name (some w) := by
  cases v <;> cases w <;> cases same <;> rfl

/-- Of a value that its shape does not look into no more than the shell is written. -/
theorem writeValue_eq_of_unopened {m : Member} {s : Shape} {v w : Value}
    (unopened : v.openedBy s = false) (same : v.shell = w.shell) :
    writeValue g m s v = writeValue g m s w := by
  have kinds : v.kind = w.kind := Value.kind_eq_of_shell_eq same
  cases kind : s.kind with
  | struct f =>
    have other : v.kind ≠ .struct := Value.kind_ne_struct_of_unopened kind unopened
    rw [writeValue_notStruct kind (Value.fields?_eq_none_iff.2 other),
      writeValue_notStruct kind (Value.fields?_eq_none_iff.2 (kinds ▸ other)), kinds]
  | list item flattened =>
    have other : v.kind ≠ .list := Value.kind_ne_list_of_unopened kind unopened
    rw [writeValue_notList kind other, writeValue_notList kind (kinds ▸ other), kinds]
  | map key value flattened =>
    rw [writeValue, writeValue]
    simp only [kind]
  | scalar k =>
    rw [writeValue, writeValue, kind, textOf_eq_of_shell same, booleanOf_eq_of_shell same]
    cases k <;> rfl

/-! ## Members and items -/

theorem writeMember_eq_of_agreesAt {fields fields' : List (String × Value)} {m : Member}
    (parts : ∀ v, v.PartOf (.struct fields) → ∀ {m : Member} {s : Shape} {w : Value},
      Agrees g s v w → writeValue g m s v = writeValue g m s w)
    (agree : AgreesAt g m (fields.lookup m.label) (fields'.lookup m.label)) :
    writeMember g fields m = writeMember g fields' m := by
  cases target : g.shapes.get? m.target with
  | none => rw [writeMember, writeMember, target]
  | some s =>
    generalize given : fields.lookup m.label = found, given' : fields'.lookup m.label = found' at agree
    cases agree with
    | absent => rw [writeMember_of_none target given, writeMember_of_none target given']
    | @present m v w agree =>
      rw [writeMember_of_some target given, writeMember_of_some target given']
      exact parts v (.field given) (agree target)

theorem writeMembers_eq_of_agree {fields fields' : List (String × Value)} {members : List Member}
    (parts : ∀ v, v.PartOf (.struct fields) → ∀ {m : Member} {s : Shape} {w : Value},
      Agrees g s v w → writeValue g m s v = writeValue g m s w)
    (agree : FieldsAgree g members fields fields') :
    writeMembers g fields members = writeMembers g fields' members := by
  induction members with
  | nil => rw [writeMembers_nil, writeMembers_nil]
  | cons m rest ih =>
    have first := writeMember_eq_of_agreesAt parts (agree m List.mem_cons_self)
    have others := ih fun m member => agree m (List.mem_cons_of_mem _ member)
    rw [writeMembers_cons, writeMembers_cons, first, others]

theorem writeItems_eq_of_agree {m : Member} {s : Shape} {items items' : List Value}
    (parts : ∀ v ∈ items, ∀ {w : Value}, Agrees g s v w → writeValue g m s v = writeValue g m s w)
    (length : items.length = items'.length)
    (agree : ∀ (i : Nat) {v w : Value}, items[i]? = some v → items'[i]? = some w →
      Agrees g s v w) : writeItems g m s items = writeItems g m s items' := by
  induction items generalizing items' with
  | nil =>
    rw [List.length_nil, eq_comm, List.length_eq_zero_iff] at length
    rw [length]
  | cons v rest ih =>
    obtain ⟨w, rest', rfl⟩ := List.exists_cons_of_length_eq_add_one length.symm
    have first := parts v List.mem_cons_self (agree 0 rfl rfl)
    have others : writeItems g m s rest = writeItems g m s rest' :=
      ih (fun v member => parts v (List.mem_cons_of_mem _ member)) (Nat.succ.inj length)
        fun i _ _ at_i at_i' => agree (i + 1) at_i at_i'
    rw [writeItems_cons, writeItems_cons, first, others]

/-- Values that agree are written alike. -/
theorem writeValue_eq_of_agrees {m : Member} {s : Shape} {v w : Value} (agree : Agrees g s v w) :
    writeValue g m s v = writeValue g m s w := by
  induction v using Value.induction_on_parts generalizing m s w with
  | whole v ih =>
    cases agree with
    | struct isStruct members =>
      have alike := writeMembers_eq_of_agree (fun v part {_} {_} {_} agree => ih v part agree) members
      rw [writeValue_struct isStruct, writeValue_struct isStruct, alike]
    | @list _ item flattened items items' isList length each =>
      cases found : g.shapes.get? item.target with
      | none =>
        rw [writeValue, writeValue]
        simp only [isList, found]
      | some element =>
        have alike (m : Member) : writeItems g m element items = writeItems g m element items' :=
          writeItems_eq_of_agree (fun v member {_} agree => ih v (.item member) agree) length
            (each found)
        cases flattened with
        | true => rw [writeValue_flattened isList found, writeValue_flattened isList found, alike]
        | false => rw [writeValue_wrapped isList found, writeValue_wrapped isList found, alike]
    | unopened unopened same => exact writeValue_eq_of_unopened unopened same

/-! ## Bodies -/

/-- The members of the input that a plan looks at: none if the body is always empty, the payload
if that makes up the body, and else all that travel in the body. -/
def counted (g : Graph) (o : Operation) : Plan → List Member
  | .empty => []
  | .document root none => (((g.shapes.get? root).bind Shape.fields?).map Fields.bodyMembers).getD []
  | .document _ (some _) | .raw _ =>
    (((o.input.bind g.shapes.get?).bind Shape.fields?).bind Fields.payloadMember?).toList

theorem documentBody_eq_of_agree {root : Fields} {fields fields' : List (String × Value)}
    (agree : FieldsAgree g root.bodyMembers fields fields') :
    documentBody g root none fields = documentBody g root none fields' := by
  have alike := writeMembers_eq_of_agree (fun _ _ {_} {_} {_} => writeValue_eq_of_agrees) agree
  simp only [documentBody, rootFields, ok_bind, alike]

theorem documentBody_eq_of_agreesAt {m : Member} {t : Shape} {root : Fields}
    {fields fields' : List (String × Value)} (target : g.shapes.get? m.target = some t)
    (isStruct : t.kind = .struct root)
    (agree : AgreesAt g m (fields.lookup m.label) (fields'.lookup m.label)) :
    documentBody g root (some m.label) fields = documentBody g root (some m.label) fields' := by
  unfold documentBody rootFields
  dsimp only
  generalize fields.lookup m.label = found, fields'.lookup m.label = found' at agree
  cases agree with
  | absent => rfl
  | @present m v w agree =>
    cases agree target with
    | @struct s f present present' isStruct' members =>
      rw [isStruct] at isStruct'
      cases isStruct'
      have alike := writeMembers_eq_of_agree (fun _ _ {_} {_} {_} => writeValue_eq_of_agrees) members
      simp only [Value.fields?, ok_bind, alike]
    | list isList _ _ =>
      rw [isStruct] at isList
      cases isList
    | unopened unopened same =>
      have kinds : v.kind = w.kind := Value.kind_eq_of_shell_eq same
      have other : v.kind ≠ .struct := Value.kind_ne_struct_of_unopened isStruct unopened
      simp only [Value.fields?_eq_none_iff.2 other, Value.fields?_eq_none_iff.2 (kinds ▸ other),
        kinds]

theorem rawBytes_eq_of_agreesAt {m : Member} {t : Shape} {v w : Option Value}
    (target : g.shapes.get? m.target = some t) (agree : AgreesAt g m v w) (name : String) :
    rawBytes name v = rawBytes name w := by
  cases agree with
  | absent => rfl
  | present agree => exact rawBytes_eq_of_shell (agree target).shell_eq name

section

variable {o : Operation} {p : Program} {fields fields' : List (String × Value)}

/-- A program has the same body for requests that agree on what its plan looks at. -/
theorem run_eq_of_agree (sound : g.Sound) (compiled : Compile.program g o = .ok p)
    (agree : FieldsAgree g (counted g o p.plan) fields fields') :
    p.run (some (.struct fields)) = p.run (some (.struct fields')) := by
  cases programOf_of_program compiled with
  | noInput _ => rfl
  | input _ found isStruct _ made =>
    rw [run_of_documentOf made, run_of_documentOf made]
    cases made with
    | nothing none => simp [requestFields, Value.fields?, documentBody, none]
    | document _ _ _ _ _ =>
      apply documentBody_eq_of_agree
      simpa [counted, found, Shape.fields?, isStruct] using agree
  | @raw input s f m given found isStruct declared _ =>
    obtain ⟨t, target⟩ := sound.members found isStruct m (Fields.mem_of_payloadMember? declared)
    have listed : m ∈ counted g o (rawProgram o.name m.label).plan := by
      simp [rawProgram, counted, given, found, Shape.fields?, isStruct, declared]
    have alike := rawBytes_eq_of_agreesAt target (agree m listed) m.label
    simp only [Program.run, rawProgram, requestFields, Value.fields?, ok_bind, alike]
  | payload given found isStruct declared _ target _ isStruct' made =>
    rw [run_of_documentOf made, run_of_documentOf made]
    cases made with
    | nothing none => simp [requestFields, Value.fields?, documentBody, none]
    | document _ _ _ _ _ =>
      refine documentBody_eq_of_agreesAt target isStruct' (agree _ ?_)
      simp [counted, given, found, Shape.fields?, isStruct, declared]

/-- Two requests that agree on what the plan looks at have the same body, or fail with the same
error.  This is so for requests that come of one another by changes that the plan does not see:
other fields than those of body members may be added or left out, at any depth, and the order of
fields is free. -/
theorem serialize_eq_of_agree (checked : g.check = .ok ()) (compiled : Compile.program g o = .ok p)
    (declared : Bool) (fields fields' : List (String × Value)) :
    (FieldsAgree g (counted g o p.plan) fields fields' →
      p.serialize declared (some (.struct fields)) =
        p.serialize declared (some (.struct fields'))) ∧
    (Relation.EqvGen (Unseen g (counted g o p.plan)) fields fields' →
      p.serialize declared (some (.struct fields)) =
        p.serialize declared (some (.struct fields'))) := by
  have sound : g.Sound := Graph.sound_of_check checked
  have same {fields fields' : List (String × Value)}
      (agree : FieldsAgree g (counted g o p.plan) fields fields') :
      p.serialize declared (some (.struct fields)) =
        p.serialize declared (some (.struct fields')) := by
    rw [Program.serialize, Program.serialize, run_eq_of_agree sound compiled agree]
  refine ⟨same, fun changes => ?_⟩
  induction changes with
  | rel _ _ unseen => exact same (fieldsAgree_of_unseen unseen)
  | refl _ => rfl
  | symm _ _ _ ih => exact ih.symm
  | trans _ _ _ _ _ ih ih' => exact ih.trans ih'

/-- A folder with its owner first and without a color, put on a host, or with the owner last, a color
and no host. -/
theorem serialize_eq_of_agree_putFolder :
    folderProgram.serialize true (some (.struct [("Host", .text "a"),
        ("Root", .struct [("Owner", .text "me"), ("Id", .text "f")])])) =
      folderProgram.serialize true (some (.struct [
        ("Root", .struct [("Id", .text "f"), ("Color", .text "red"), ("Owner", .text "me")])])) := by
  have checked : folderGraph.check = .ok () := (Graph.load_eq_ok_iff.1 load_folderDescription).2
  refine (serialize_eq_of_agree checked program_putFolder true _ _).2 ?_
  have host : Unseen folderGraph (counted folderGraph putFolder folderProgram.plan)
      [("Root", .struct [("Owner", .text "me"), ("Id", .text "f")])]
      [("Host", .text "a"), ("Root", .struct [("Owner", .text "me"), ("Id", .text "f")])] :=
    @Unseen.extra _ _ [] _ _ _ (by decide)
  have order : Unseen folderGraph (counted folderGraph putFolder folderProgram.plan)
      [("Root", .struct [("Owner", .text "me"), ("Id", .text "f")])]
      [("Root", .struct [("Id", .text "f"), ("Owner", .text "me")])] :=
    .order (@Reordered.field [] [] _ _ _ (.here (by decide) (.swap _ _ _)))
  have color : Unseen folderGraph (counted folderGraph putFolder folderProgram.plan)
      [("Root", .struct [("Id", .text "f"), ("Owner", .text "me")])]
      [("Root", .struct [("Id", .text "f"), ("Color", .text "red"), ("Owner", .text "me")])] := by
    refine @Unseen.inside _ _ [] [] _ _ _ fun m member _ {s} target => ?_
    have pointed : ∀ m ∈ counted folderGraph putFolder folderProgram.plan,
        ∀ s ∈ (folderGraph.shapes.get? m.target).toList, s.fields? = some folderFields := by decide
    have isStruct : s.kind = .struct folderFields :=
      Shape.fields?_eq_some_iff.1 (pointed m member s (Option.mem_toList.2 target))
    exact .fields isStruct (@Unseen.extra _ _ [("Id", .text "f")] _ _ _ (by decide))
  exact .trans _ _ _ (.symm _ _ (.rel _ _ host))
    (.trans _ _ _ (.rel _ _ order) (.rel _ _ color))

end

end WireBody.Direct

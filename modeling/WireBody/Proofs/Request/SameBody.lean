import WireBody.Request.Value
import WireBody.Proofs.Service.Carries

/-!
# Values with the same body

Two values of a shape may differ where the body does not look: in fields that travel elsewhere or
are not declared, in whether a text comes as text or as bytes, and in whether a list without items
is absent.  `SameBody` says that they agree on everything else.
-/

set_option autoImplicit false

namespace WireBody.Request

open WireBody.Service

/-- A text, or the bytes of one. -/
def Value.HasText (v : Value) (text : String) : Prop := v = .text text ∨ v = .blob text.toUTF8

mutual

/-- Two values of a shape agree on all that a body carries of them. -/
inductive SameBody (g : Graph) : Shape → Value → Value → Prop
  | struct {s : Shape} {f : Fields} {fields fields' : List (String × Value)} :
      s.kind = .struct f →
      (∀ m ∈ f.bodyMembers, SameMember g m (fields.lookup m.label) (fields'.lookup m.label)) →
      SameBody g s (.struct fields) (.struct fields')
  | list {s element : Shape} {item : Member} {flattened : Bool} {items items' : List Value} :
      s.kind = .list item flattened → g.shapes.get? item.target = some element →
      items.length = items'.length →
      (∀ (i : Nat) {v w : Value}, items[i]? = some v → items'[i]? = some w →
        SameBody g element v w) →
      SameBody g s (.list items) (.list items')
  | text {s : Shape} {k : Scalar} {v w : Value} {text : String} :
      s.kind = .scalar k → k.isText = true → v.HasText text → w.HasText text → SameBody g s v w
  | boolean {s : Shape} {b : Bool} :
      s.kind = .scalar .boolean → SameBody g s (.boolean b) (.boolean b)

/-- Two fields of a member agree: both are absent or have the same body.  An absent list counts as
one without items. -/
inductive SameMember (g : Graph) : Member → Option Value → Option Value → Prop
  | absent {m : Member} {s : Shape} :
      g.shapes.get? m.target = some s → s.isList = false → SameMember g m none none
  | present {m : Member} {s : Shape} {v w : Value} :
      g.shapes.get? m.target = some s → s.isList = false → SameBody g s v w →
      SameMember g m (some v) (some w)
  | list {m : Member} {s : Shape} {v w : Option Value} :
      g.shapes.get? m.target = some s → s.isList = true →
      SameBody g s (v.getD (.list [])) (w.getD (.list [])) → SameMember g m v w

end

end WireBody.Request

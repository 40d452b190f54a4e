/-
Policies where the type is given.

A policy says which form a record takes when its type is chosen. A type without variants leaves nothing to choose: whatever
shape is fitted to it becomes the same value, or is refused for the same reason, under every policy
(`Shape.realize_indifferent`), and so does a body whose signature has no variants (`target_overrules_policy`).
-/
import Mathlib
import MessageBus.Proofs.Data.Seen
import MessageBus.Proofs.Ty.Depth

namespace MessageBus

namespace Shape

variable {P Q : Policy}

/-- both policies make the same of every shape that is to be of a type -/
abbrev Indifferent (P Q : Policy) (type : Ty) : Prop := ∀ shape : Shape, shape.realize P type = shape.realize Q type

theorem realizeAll_indifferent {element : Ty} (h : Indifferent P Q element) (items : List Shape) :
    realizeAll P element items = realizeAll Q element items := by
  rw [realizeAll_eq_mapM, realizeAll_eq_mapM, funext h]

theorem realizeItems_indifferent {types : List Ty} (h : ∀ type ∈ types, Indifferent P Q type) (items : List Shape) :
    realizeItems P types items = realizeItems Q types items := by
  induction types generalizing items with
  | nil => cases items <;> rfl
  | cons type types ih =>
    obtain ⟨htype, htypes⟩ := List.forall_mem_cons.1 h
    cases items with
    | nil => rfl
    | cons item items => rw [realizeItems, realizeItems, htype, ih htypes]

section Dict

variable {key value : Ty} (hkey : Indifferent P Q key) (hvalue : Indifferent P Q value)
include hkey hvalue

theorem realizeEntries_indifferent (entries : List (Shape × Shape)) :
    realizeEntries P key value entries = realizeEntries Q key value entries := by
  rw [realizeEntries_eq_mapM, realizeEntries_eq_mapM, funext hkey, funext hvalue]

omit hkey in
theorem realizePresent_indifferent (fields : List (String × Shape)) :
    realizePresent P key value fields = realizePresent Q key value fields := by
  rw [realizePresent_eq_mapM, realizePresent_eq_mapM, funext hvalue]

theorem realizePairs_indifferent (items : List Shape) : realizePairs P key value items = realizePairs Q key value items := by
  induction items with
  | nil => rfl
  | cons item items ih =>
    unfold realizePairs
    split
    · next hnil => cases hnil
    · next heq =>
        cases heq
        rw [hkey, hvalue, ih]
    · next heq =>
        cases heq
        rw [hkey, hvalue, ih]
    · next heq =>
        cases heq
        rfl

end Dict

theorem indifferent_basic (type : Basic) : Indifferent P Q (.basic type) := by
  intro shape
  cases shape with
  | unitVariant index name =>
    by_cases hstring : type = .text .string
    · subst hstring
      rfl
    · rw [realize_index hstring, realize_index hstring]
  | _ => rfl

theorem indifferent_array {element : Ty} (hs : element.Shaped) (h : Indifferent P Q element) :
    Indifferent P Q (.array element) := by
  intro shape
  have hall (items : List Shape) : (do return .array (← realizeAll P element items) : Except Error Value)
      = do return .array (← realizeAll Q element items) := by rw [realizeAll_indifferent h]
  cases shape with
  | seq items => cases hs <;> exact hall items
  | tuple items => cases hs <;> exact hall items
  | _ => cases hs <;> rfl

theorem indifferent_dict (key : Basic) {value : Ty} (h : Indifferent P Q value) :
    Indifferent P Q (.array (.dictEntry (.basic key) value)) := by
  intro shape
  cases shape with
  | map entries => rw [realize, realize, realizeEntries_indifferent (indifferent_basic key) h]
  | record name fields => rw [realize, realize, realizePresent_indifferent h]
  | seq items => rw [realize, realize, realizePairs_indifferent (indifferent_basic key) h]
  | _ => rfl

theorem indifferent_struct {types : List Ty} (h : ∀ type ∈ types, Indifferent P Q type) :
    Indifferent P Q (.struct types) := by
  intro shape
  cases shape with
  | seq items => rw [realize, realize, realizeItems_indifferent h]
  | tuple items => rw [realize, realize, realizeItems_indifferent h]
  | record name fields =>
    rw [realize, realize, realizeFields_eq, realizeFields_eq, realizeItems_indifferent h]
  | _ => rfl

/-- **A type without variants leaves a policy nothing to decide.** -/
theorem realize_indifferent {type : Ty} (hs : type.Shaped) (hv : .variant ∉ type.parts) : Indifferent P Q type := by
  induction hs with
  | basic type => exact indifferent_basic type
  | variant => exact absurd (Ty.self_mem_parts .variant) hv
  | array hs ih =>
    exact indifferent_array hs (ih fun hin => hv (Ty.mem_parts_of_child (List.mem_singleton_self _) hin))
  | @dict key value hs ih =>
    have hchild : value ∈ (Ty.dictEntry (.basic key) value).children := by simp [Ty.children]
    refine indifferent_dict key (ih fun hin => hv ?_)
    exact Ty.mem_parts_of_child (List.mem_singleton_self _) (Ty.mem_parts_of_child hchild hin)
  | struct hne hs ih =>
    exact indifferent_struct fun type htype => ih type htype fun hin => hv (Ty.mem_parts_of_child htype hin)

end Shape

/-- **The type that is given wins over the policy.** A shape that is to be of a type without variants becomes the same value
under any two policies, or fails with the same error, and so do the arguments of a signature without variants. -/
theorem target_overrules_policy (P Q : Policy) :
    (∀ (text : String) (type : Ty) (shape : Shape), Ty.parseSingle text = .ok type → .variant ∉ type.parts →
      shape.realize P type = shape.realize Q type) ∧
    ∀ (signature : String) (datum : Datum),
      (∀ types, Ty.parse signature = .ok types → ∀ type ∈ types, .variant ∉ type.parts) →
        Body.ofDatum signature datum P = Body.ofDatum signature datum Q := by
  have hindifferent {signature : String} {types : List Ty} (htypes : Ty.parse signature = .ok types)
      (hv : ∀ type ∈ types, .variant ∉ type.parts) : ∀ type ∈ types, Shape.Indifferent P Q type := fun type htype =>
    Shape.realize_indifferent ((Ty.parse_sound htypes).2.2 type htype).shaped (hv type htype)
  constructor
  · intro text type shape htype hv
    have hone : ∀ other ∈ [type], .variant ∉ other.parts := List.forall_mem_singleton.2 hv
    exact hindifferent (Ty.parseSingle_eq_ok_iff.1 htype) hone type (List.mem_singleton_self type) shape
  · intro signature datum hv
    rw [Body.ofDatum, Body.ofDatum]
    cases htypes : Ty.parse signature with
    | error e => rfl
    | ok types =>
      have hitems : Shape.realizeItems P types = Shape.realizeItems Q types :=
        funext (Shape.realizeItems_indifferent (hindifferent htypes (hv types htypes)))
      change (do Body.ofParts types (← Shape.realizeItems P types (← Body.spread signature types (← datum.shape)))) = _
      rw [hitems]
      rfl

def point : Datum := .record "Point" [("x", .int .i32 1), ("y", .int .i32 2)]

def pointShape : Shape := .record "Point" [("x", .leaf (.int .int32 1)), ("y", .leaf (.int .int32 2))]

/-- names to wide numbers -/
def namedNumbers : Ty := .array (.dictEntry (.basic (.text .string)) (.basic (.int .int64)))

/-- a point in a struct -/
def pointBody : Body :=
  ⟨[.struct [.basic (.int .int32), .basic (.int .int32)]], [.struct [.scalar (.int .int32 1), .scalar (.int .int32 2)]], rfl⟩

/-- a point is a dict where a dict is asked for, though the policy prefers structs, and a struct where a struct is asked for,
though the policy prefers dicts -/
theorem target_overrules_policy_point :
    Ty.parseSingle "a\x7bsx\x7d" = .ok namedNumbers ∧ .variant ∉ namedNumbers.parts ∧
      pointShape.realize .structs namedNumbers
        = .ok (.dict [(.string "x", .scalar (.int .int64 1)), (.string "y", .scalar (.int .int64 2))]) ∧
      (∀ types, Ty.parse "(ii)" = .ok types → ∀ type ∈ types, .variant ∉ type.parts) ∧
      Body.ofDatum "(ii)" point .dicts = .ok pointBody := by
  have htext : Ty.parseSingle "a\x7bsx\x7d" = .ok namedNumbers := by rfl
  have hv : .variant ∉ namedNumbers.parts := by decide
  have hvs : ∀ types, Ty.parse "(ii)" = .ok types → ∀ type ∈ types, .variant ∉ type.parts := by
    intro types htypes
    have hparse : Ty.parse "(ii)" = .ok [.struct [.basic (.int .int32), .basic (.int .int32)]] := by rfl
    cases hparse.symm.trans htypes
    decide
  obtain ⟨hshape, hbody⟩ := target_overrules_policy .dicts .structs
  refine ⟨htext, hv, ?_, hvs, ?_⟩
  · rw [← hshape _ _ pointShape htext hv]
    rfl
  · rw [hbody _ point hvs]
    rfl

/-- inside of a variant the policy decides -/
example : ((pointShape.infer .dicts).map (·.1.text), (pointShape.infer .structs).map (·.1.text))
    = (.ok "a\x7bsv\x7d", .ok "(ii)") := by rfl

end MessageBus

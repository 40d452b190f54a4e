/-
Values of a type, of any depth.

`HasType` is the typing relation of values: every part is of the kind that the type names, a dict array is a dict, and a
variant holds a value of the type that it carries. In contrast to `Exact` it counts no levels and sets no limit to the
types that variants carry, which are only of the right shape. It leaves open which plain strings are admitted, since only
the encoder looks for a NUL in them.

A value that has a type is normal: nothing in it stands for something else (`HasType.normalize_eq`).
-/
import MessageBus.Proofs.Value.Typing

namespace MessageBus

variable {admits : String → Prop}

/-- a scalar obeys the rules of its kind, which are up to `admits` for a plain string -/
def Scalar.ValidBy (admits : String → Prop) : Scalar → Prop
  | text .string content => admits content
  | value => value.Valid

namespace Value

/-- a value is of a type, with nothing in it that only stands for something else -/
inductive HasType (admits : String → Prop) : Ty → Value → Prop where
  | scalar {type : Basic} {value : Scalar} (htype : value.type = type) (h : value.ValidBy admits) :
      HasType admits (.basic type) (.scalar value)
  /-- what a variant carries is a type of its own right -/
  | variant {type : Ty} {value : Value} (hs : type.Shaped) (h : HasType admits type value) :
      HasType admits .variant (.variant type value)
  | array {element : Ty} {items : List Value} (hs : element.Shaped) (h : ∀ item ∈ items, HasType admits element item) :
      HasType admits (.array element) (.array items)
  | dict {key value : Ty} {entries : List (Value × Value)} (hkey : ∀ entry ∈ entries, HasType admits key entry.1)
      (hvalue : ∀ entry ∈ entries, HasType admits value entry.2) :
      HasType admits (.array (.dictEntry key value)) (.dict entries)
  | struct {types : List Ty} {fields : List Value} (hlen : types.length = fields.length)
      (h : ∀ field ∈ types.zip fields, HasType admits field.1 field.2) : HasType admits (.struct types) (.struct fields)

theorem normalizeAll_eq_self {types : List Ty} {values : List Value}
    (h : ∀ field ∈ types.zip values, normalize field.1 field.2 = field.2) : normalizeAll types values = values := by
  induction types generalizing values with
  | nil => cases values <;> rfl
  | cons type types ih =>
    cases values with
    | nil => rfl
    | cons value values =>
      obtain ⟨hvalue, hvalues⟩ := List.forall_mem_cons.1 h
      rw [normalizeAll, hvalue, ih hvalues]

/-- **A value that has a type is normal.** -/
theorem HasType.normalize_eq {type : Ty} {value : Value} (h : HasType admits type value) :
    normalize type value = value := by
  induction h with
  | scalar htype _ =>
    subst htype
    rw [normalize, Basic.coerce?_type, Option.getD_some]
  | variant _ _ ih => rw [normalize, ih]
  | array hs _ ih => rw [normalize_array hs, List.map_congr_left ih, List.map_id']
  | dict _ _ ihkey ihvalue =>
    have hentry (e) (he : e ∈ _) : (normalize _ e.1, normalize _ e.2) = e := Prod.ext (ihkey e he) (ihvalue e he)
    rw [normalize, normalizeEntries_eq_map, List.map_congr_left hentry, List.map_id']
  | struct _ _ ih => rw [normalize, normalizeAll_eq_self ih]

end Value

end MessageBus

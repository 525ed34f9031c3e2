import Mathlib.Data.List.Forall2
import Mathlib.Data.List.Perm.Basic
import Mathlib.Data.Option.Basic
import RadioBroker.Declaration.Reader

/-!
# Other spellings of declarations

A schema object may be spelled in more than one way: its members may stand in any order, and there
may be members of unknown keys. `Schema.Respelled` says that of one object, and `Location.Respelled`
to `Declaration.Respelled` follow the schema down to the objects inside a declaration. The readers
do not tell the spellings of an object apart (`Declaration.readsAlike`), whether or not they can
read it.
-/

namespace RadioBroker

namespace Json

variable {members others : List (String × Json)} {key : String}

theorem valuesOf_append : valuesOf key (members ++ others) =
    valuesOf key members ++ valuesOf key others := by
  simp [valuesOf]

/-- A key has no values among members of other keys. -/
theorem valuesOf_eq_nil (h : ∀ member ∈ members, member.1 ≠ key) : valuesOf key members = [] := by
  simpa [valuesOf, List.filter_eq_nil_iff] using h

/-- The order of the members does not matter: a key that is written twice cannot be read, whichever
of its values is first. -/
theorem single?_eq_of_perm (h : members.Perm others) :
    single? key members = single? key others := by
  have hvalues : (valuesOf key members).Perm (valuesOf key others) := (h.filter _).map _
  unfold single?
  match hfirst : valuesOf key members, hsecond : valuesOf key others with
  | [], values =>
    rw [hfirst, hsecond] at hvalues
    rw [hvalues.symm.eq_nil]
  | [value], values =>
    rw [hfirst, hsecond] at hvalues
    rw [List.perm_singleton.mp hvalues.symm]
  | _ :: _ :: _, [] => simp [hfirst, hsecond] at hvalues
  | _ :: _ :: _, [value] => simpa [hfirst, hsecond] using hvalues.length_eq
  | _ :: _ :: _, _ :: _ :: _ => rfl

/-- A key is not looked for among members of other keys. -/
theorem single?_append (h : ∀ member ∈ others, member.1 ≠ key) :
    single? key (members ++ others) = single? key members := by
  rw [single?, valuesOf_append, valuesOf_eq_nil h, List.append_nil]
  rfl

end Json

namespace Schema

open Json

variable {keys : List String} {nested : List (String × (Json → Json → Prop))}
variable {members respelled : List (String × Json)} {key : String} {value other : Json}

/-- A reader reads the same from values that are spellings of each other. -/
def ReadsAlike {α : Type} (spelling : Json → Json → Prop) (read : Json → Option α) : Prop :=
  ∀ value other, spelling value other → read other = read value

section Related

variable {α β : Type} {r : α → β → Prop}

/-- Related options are both there or both missing. -/
theorem isSome_eq_of_rel {a : Option α} {b : Option β} (h : Option.Rel r a b) :
    b.isSome = a.isSome := by
  cases h <;> rfl

/-- Fields are related if the values in them are. -/
theorem rel_join {a : Option (Option α)} {b : Option (Option β)}
    (h : Option.Rel (Option.Rel r) a b) : Option.Rel r a.join b.join := by
  cases h with
  | some h => exact h
  | none => exact .none

end Related

/-- How the values of a key may differ: as `nested` has it, and not at all for other keys. -/
def SameValue (nested : List (String × (Json → Json → Prop))) (key : String) :
    Json → Json → Prop :=
  (nested.lookup key).getD Eq

/-- How a member may differ: its key does not, its value may. -/
def SameMember (nested : List (String × (Json → Json → Prop))) (member written : String × Json) :
    Prop :=
  written.1 = member.1 ∧ SameValue nested member.1 member.2 written.2

/-- A JSON value is another spelling of a schema object with these known keys: the members may
stand in another order, there may be more members, of unknown keys, and the values of the keys in
`nested` may themselves be spelled in another way. -/
inductive Respelled (keys : List String) (nested : List (String × (Json → Json → Prop))) :
    Json → Json → Prop where
  | same (value : Json) : Respelled keys nested value value
  | object {members respelled unknown whole : List (String × Json)}
      (hmembers : List.Forall₂ (SameMember nested) members respelled)
      (hunknown : ∀ member ∈ unknown, member.1 ∉ keys)
      (hwhole : whole.Perm (respelled ++ unknown)) :
      Respelled keys nested (.object members) (.object whole)

/-- An array of other spellings of the elements of an array. -/
inductive RespelledEach (element : Json → Json → Prop) : Json → Json → Prop where
  | array {elements respelled : List Json} (helements : List.Forall₂ element elements respelled) :
      RespelledEach element (.array elements) (.array respelled)

/-- A key has the same values in both spellings, each spelled in its way. -/
theorem valuesOf_respelled (h : List.Forall₂ (SameMember nested) members respelled) :
    List.Forall₂ (SameValue nested key) (valuesOf key members) (valuesOf key respelled) := by
  induction h with
  | nil => exact .nil
  | @cons member written members respelled hmember _ ih =>
    obtain ⟨hkey, hvalue⟩ := hmember
    by_cases hthis : member.1 = key
    · have hwritten : written.1 = key := hkey.trans hthis
      simpa [valuesOf, hthis, hwritten] using ⟨hthis ▸ hvalue, by simpa [valuesOf] using ih⟩
    · have hwritten : written.1 ≠ key := hkey ▸ hthis
      simpa [valuesOf, hthis, hwritten] using ih

/-- A known key is read from both spellings or from neither, and what is read are two spellings of
one value. -/
theorem single?_respelled {unknown whole : List (String × Json)}
    (hmembers : List.Forall₂ (SameMember nested) members respelled)
    (hunknown : ∀ member ∈ unknown, member.1 ∉ keys) (hwhole : whole.Perm (respelled ++ unknown))
    (hkey : key ∈ keys) :
    Option.Rel (Option.Rel (SameValue nested key)) (single? key members) (single? key whole) := by
  have hother : ∀ member ∈ unknown, member.1 ≠ key := fun member hmember heq =>
    hunknown member hmember (heq ▸ hkey)
  rw [single?_eq_of_perm hwhole, single?_append hother]
  have hvalues : List.Forall₂ (SameValue nested key) (valuesOf key members)
      (valuesOf key respelled) := valuesOf_respelled hmembers
  unfold single?
  generalize valuesOf key members = values at hvalues ⊢
  generalize valuesOf key respelled = written at hvalues ⊢
  cases hvalues with
  | nil => exact .some .none
  | cons hvalue hrest =>
    cases hrest with
    | nil => exact .some (.some hvalue)
    | cons _ _ => exact .none

/-- The fields of an object can be read when no known key is repeated. -/
theorem namedFields?_object : namedFields? keys (.object members) =
    if ∀ key ∈ keys, (single? key members).isSome then
      some (keys.map fun key => (single? key members).join)
    else none := by
  change keys.mapM (fun key => single? key members) = _
  induction keys with
  | nil => rfl
  | cons key keys ih =>
    rw [List.mapM_cons, ih]
    cases hkey : single? key members with
    | none => simp [hkey]
    | some field =>
      simp only [List.forall_mem_cons, hkey, Option.isSome_some, true_and]
      split <;> simp [hkey]

/-- Objects with the same values for the known keys have the same fields. -/
theorem namedFields?_congr {others : List (String × Json)}
    (h : ∀ key ∈ keys, single? key others = single? key members) :
    namedFields? keys (.object others) = namedFields? keys (.object members) := by
  have hiff : (∀ key ∈ keys, (single? key others).isSome) ↔
      ∀ key ∈ keys, (single? key members).isSome :=
    forall₂_congr fun key hkey => by rw [h key hkey]
  have hfields : keys.map (fun key => (single? key others).join) =
      keys.map fun key => (single? key members).join :=
    List.map_congr_left fun key hkey => by rw [h key hkey]
  simp only [namedFields?_object, hiff, hfields]

/-- What is made of the fields of an object is the same for all its spellings, if it is the same for
fields that are spellings of each other. -/
theorem Respelled.bind_namedFields? {α : Type} {make : List (Option Json) → Option α}
    (h : Respelled keys nested value other)
    (hmake : ∀ {field written : String → Option Json},
      (∀ key ∈ keys, Option.Rel (SameValue nested key) (field key) (written key)) →
        make (keys.map written) = make (keys.map field)) :
    (namedFields? keys other).bind make = (namedFields? keys value).bind make := by
  cases h with
  | same => rfl
  | @object members _ _ whole hmembers hunknown hwhole =>
    have hsingle : ∀ key ∈ keys, Option.Rel (Option.Rel (SameValue nested key))
        (single? key members) (single? key whole) := fun key hkey =>
      single?_respelled hmembers hunknown hwhole hkey
    have hiff : (∀ key ∈ keys, (single? key whole).isSome) ↔
        ∀ key ∈ keys, (single? key members).isSome :=
      forall₂_congr fun key hkey => by rw [isSome_eq_of_rel (hsingle key hkey)]
    rw [namedFields?_object, namedFields?_object]
    by_cases hall : ∀ key ∈ keys, (single? key members).isSome
    · rw [if_pos hall, if_pos (hiff.mpr hall)]
      exact hmake fun key hkey => rel_join (hsingle key hkey)
    · rw [if_neg hall, if_neg (mt hiff.mp hall)]

/-- The same where the fields may also stand in an array, which has one spelling. -/
theorem Respelled.bind_fields? {α : Type} {make : List (Option Json) → Option α}
    (h : Respelled keys nested value other)
    (hmake : ∀ {field written : String → Option Json},
      (∀ key ∈ keys, Option.Rel (SameValue nested key) (field key) (written key)) →
        make (keys.map written) = make (keys.map field)) :
    (fields? keys other).bind make = (fields? keys value).bind make := by
  cases h with
  | same => rfl
  | object hmembers hunknown hwhole =>
    exact (Respelled.object hmembers hunknown hwhole).bind_namedFields? hmake

section Fields

variable {α : Type} {read : Json → Option α} {field written : Option Json}

/-- A field with one spelling. -/
theorem eq_of_sameValue (h : Option.Rel (SameValue nested key) field written)
    (hkey : key ∉ nested.map Prod.fst) : written = field := by
  have hplain : nested.lookup key = none := by
    rw [List.lookup_eq_none_iff]
    intro entry hentry
    have hne : key ≠ entry.1 := fun heq => hkey (heq ▸ List.mem_map_of_mem hentry)
    simpa using hne
  cases h with
  | none => rfl
  | some hvalue => rw [SameValue, hplain] at hvalue; exact congrArg some hvalue.symm

/-- A field with a default is read the same in all its spellings, if its values are. -/
theorem defaulting_eq {spelling : Json → Json → Prop} (default : α)
    (h : Option.Rel (SameValue nested key) field written) (hkey : nested.lookup key = some spelling)
    (hread : ReadsAlike spelling read) :
    defaulting default read written = defaulting default read field := by
  cases h with
  | none => rfl
  | some hvalue => rw [SameValue, hkey] at hvalue; exact hread _ _ hvalue

/-- A list is read the same in all its spellings, if its elements are. -/
theorem readsAlike_listOf {spelling : Json → Json → Prop} (hread : ReadsAlike spelling read) :
    ReadsAlike (RespelledEach spelling) (listOf read) := by
  rintro _ _ ⟨helements⟩
  simp only [listOf, asArray?, Option.bind_some]
  induction helements with
  | nil => rfl
  | cons helement _ ih => rw [List.mapM_cons, List.mapM_cons, hread _ _ helement, ih]

end Fields

end Schema

open Schema

/-- Another spelling of a location. -/
def Location.Respelled : Json → Json → Prop :=
  Schema.Respelled ["file", "start", "end"] []

/-- The known keys of a generic shape: its kind, and the fields of that kind. -/
def Generics.keys : Json → List String
  | .object members =>
    "kind" :: ((Json.single? "kind" members).bind (required shape)).elim [] shapeKeys
  | _ => []

/-- Another spelling of a generic shape. -/
def Generics.Respelled (value : Json) : Json → Prop :=
  Schema.Respelled (Generics.keys value) [] value

/-- Another spelling of an attribute. -/
def Attribute.Respelled : Json → Json → Prop :=
  Schema.Respelled ["name", "arguments", "named_arguments", "location"]
    [("location", Location.Respelled)]

/-- Another spelling of a method. -/
def Method.Respelled : Json → Json → Prop :=
  Schema.Respelled ["name", "return_type", "parameters", "declared_in", "location"]
    [("location", Location.Respelled)]

/-- Another spelling of a declaration. -/
def Declaration.Respelled : Json → Json → Prop :=
  Schema.Respelled Declaration.keys
    [("generics", Generics.Respelled), ("attributes", RespelledEach Attribute.Respelled),
     ("methods", RespelledEach Method.Respelled), ("location", Location.Respelled)]

/-- The reader does not tell the spellings of a location apart. -/
theorem Location.readsAlike : ReadsAlike Location.Respelled Location.ofJson? := by
  intro value other h
  refine h.bind_namedFields? fun hfields => ?_
  have hplain := fun key hkey => eq_of_sameValue (hfields key hkey)
  simp [hplain]

/-- The reader does not tell the spellings of a generic shape apart. Its kind is read first, and
says which other keys are known. -/
theorem Generics.readsAlike : ReadsAlike Generics.Respelled Generics.ofJson? := by
  intro value other h
  cases h with
  | same => rfl
  | @object members _ _ whole hmembers hunknown hwhole =>
    have hsingle : ∀ key ∈ Generics.keys (.object members),
        Json.single? key whole = Json.single? key members := by
      intro key hkey
      have hfield := single?_respelled hmembers hunknown hwhole hkey
      generalize Json.single? key members = field at hfield ⊢
      generalize Json.single? key whole = written at hfield ⊢
      cases hfield with
      | none => rfl
      | some hfield => rw [eq_of_sameValue hfield List.not_mem_nil]
    simp only [Generics.ofJson?, hsingle "kind" (.head _)]
    cases hkind : Json.single? "kind" members with
    | none => rfl
    | some field =>
      cases hshape : required shape field with
      | none => simp [hshape]
      | some shape =>
        have hfields : namedFields? (shapeKeys shape) (.object whole) =
            namedFields? (shapeKeys shape) (.object members) :=
          namedFields?_congr fun key hkey =>
            hsingle key (by simp [Generics.keys, hkind, hshape, hkey])
        simp only [Option.bind_eq_bind, Option.bind_some, hshape, hfields]

/-- The reader does not tell the spellings of an attribute apart. -/
theorem Attribute.readsAlike : ReadsAlike Attribute.Respelled Attribute.ofJson? := by
  intro value other h
  refine h.bind_fields? fun hfields => ?_
  have hplain := fun key hkey => eq_of_sameValue (hfields key hkey)
  have hlocation := defaulting_eq {} (hfields "location" (by decide)) rfl Location.readsAlike
  simp [hplain, hlocation]

/-- The reader does not tell the spellings of a method apart. -/
theorem Method.readsAlike : ReadsAlike Method.Respelled Method.ofJson? := by
  intro value other h
  refine h.bind_fields? fun hfields => ?_
  have hplain := fun key hkey => eq_of_sameValue (hfields key hkey)
  have hlocation := defaulting_eq {} (hfields "location" (by decide)) rfl Location.readsAlike
  simp [hplain, hlocation]

/-- The reader does not tell the spellings of a declaration apart. -/
theorem Declaration.readsAlike : ReadsAlike Declaration.Respelled Declaration.ofJson? := by
  intro value other h
  refine h.bind_fields? fun {field written} hfields => ?_
  have hplain : ∀ key ∈ ["name", "full_name", "namespace", "kind", "accessibility", "is_partial",
      "containing_type", "interfaces"], written key = field key := by
    intro key hkey
    have hknown : key ∈ Declaration.keys := by revert key; decide
    exact eq_of_sameValue (hfields key hknown) (by revert key; decide)
  have hgenerics := defaulting_eq .notGeneric (hfields "generics" (by decide)) rfl
    Generics.readsAlike
  have hattributes := defaulting_eq [] (hfields "attributes" (by decide)) rfl
    (readsAlike_listOf Attribute.readsAlike)
  have hmethods := defaulting_eq [] (hfields "methods" (by decide)) rfl
    (readsAlike_listOf Method.readsAlike)
  have hlocation := defaulting_eq {} (hfields "location" (by decide)) rfl Location.readsAlike
  simp only [List.forall_mem_cons] at hplain
  simp only [Declaration.keys, List.map_cons, List.map_nil, hplain, hgenerics, hattributes,
    hmethods, hlocation]

namespace Declaration

/-- Another spelling of an array of declarations: an array of spellings of them, or an object with
such an array under `types`. -/
inductive RespelledList (value : Json) : Json → Prop where
  | bare {other : Json} (hother : RespelledEach Declaration.Respelled value other) :
      RespelledList value other
  | wrapped {other : Json}
      (hother : Schema.Respelled ["types"] [("types", RespelledEach Declaration.Respelled)]
        (.object [("types", value)]) other) : RespelledList value other

theorem listOfJson?_object {members : List (String × Json)} :
    listOfJson? (.object members) = (namedFields? ["types"] (.object members)).bind fun fields =>
      required (listOf ofJson?) fields.head?.join := by
  cases hsingle : Json.single? "types" members <;> simp [listOfJson?, namedFields?, hsingle]

/-- An array of declarations is read the same in all its spellings. -/
theorem listOfJson?_respelled {elements : List Json} {other : Json}
    (h : RespelledList (.array elements) other) :
    listOfJson? other = elements.mapM ofJson? := by
  cases h with
  | bare hother =>
    have hread := readsAlike_listOf Declaration.readsAlike _ _ hother
    cases hother
    exact hread
  | wrapped hother =>
    have hread : (namedFields? ["types"] other).bind (fun fields =>
          required (listOf ofJson?) fields.head?.join) =
        (namedFields? ["types"] (.object [("types", .array elements)])).bind fun fields =>
          required (listOf ofJson?) fields.head?.join := by
      refine hother.bind_namedFields? fun {field written} hfields => ?_
      have htypes := hfields "types" (by decide)
      simp only [List.map_cons, List.head?_cons, Option.join_some]
      generalize field "types" = types at htypes ⊢
      generalize written "types" = types' at htypes ⊢
      cases htypes with
      | none => rfl
      | some htypes => exact readsAlike_listOf Declaration.readsAlike _ _ htypes
    cases hother with
    | same => rfl
    | object => rw [listOfJson?_object, hread]; rfl

end Declaration

end RadioBroker

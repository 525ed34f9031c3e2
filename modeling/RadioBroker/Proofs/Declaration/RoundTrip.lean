import RadioBroker.Declaration.Writer
import RadioBroker.Proofs.Declaration.Respelling

/-!
# Declarations, written and read again

What is written for a declaration is read as that declaration, part by part, provided that its
offsets and integers fit their words, that its named arguments have different names, and that its
types are read from their texts. The readers do not tell the spellings of a schema object apart, so
that this holds of all spellings of what is written.
-/

namespace RadioBroker

namespace Schema

variable {α β : Type}

/-- A field that has been read, and what is read from it and the fields behind it. -/
theorem bind_of_eq_some {first : Option α} {read : α} {next : α → Option β} {result : Option β}
    (hfirst : first = some read) (hnext : next read = result) : (first >>= next) = result := by
  rw [hfirst]
  exact hnext

/-- A list is read as the values it was written for, if each of them is. -/
theorem listOf_map (write : α → Json) {read : Json → Option α} {values : List α}
    (h : ∀ value ∈ values, read (write value) = some value) :
    listOf read (.array (values.map write)) = some values := by
  simp only [listOf, Json.asArray?, Option.bind_some]
  induction values with
  | nil => rfl
  | cons value values ih =>
    obtain ⟨hvalue, hvalues⟩ := List.forall_mem_cons.mp h
    rw [List.map_cons, List.mapM_cons, hvalue, ih hvalues]
    rfl

theorem listOf_strings (values : List String) :
    listOf Json.asString? (strings values) = some values :=
  listOf_map .string fun _ _ => rfl

/-- A type is read from its text in a schema as it is read from it elsewhere. -/
theorem typeExpr_display {t : TypeExpr} (h : TypeExpr.parse t.display = .ok t) :
    typeExpr (.string t.display) = some t := by
  simp [typeExpr, Json.asString?, h, Except.toOption]

/-- A list of types is read as it was written. -/
theorem listOf_types {values : List TypeExpr}
    (h : ∀ t ∈ values, TypeExpr.parse t.display = .ok t) :
    listOf typeExpr (types values) = some values := by
  rw [types, strings, List.map_map]
  exact listOf_map _ fun t ht => typeExpr_display (h t ht)

/-- A field that is written only when it is there. -/
theorem nullable_map_string (value : Option String) :
    defaulting none (nullable Json.asString?) (value.map .string) = some value := by
  cases value <;> rfl

/-- Each kind of type is read from its own word. -/
theorem word_typeKinds (kind : TypeKind) : word typeKinds (.string kind.word) = some kind := by
  cases kind <;> rfl

/-- Each accessibility is read from its own word. -/
theorem word_accessibilities (accessibility : Accessibility) :
    word accessibilities (.string accessibility.word) = some accessibility := by
  cases accessibility <;> rfl

/-- An offset that fits its word is read as it is. -/
theorem offset_integer {value : Nat} (h : value < Location.offsetLimit) :
    offset (.integer value) = some value := by
  have hrange : (0 : Int) ≤ value ∧ (value : Int) ≤ Location.offsetLimit - 1 := by omega
  simp [offset, integerBetween, hrange]

end Schema

open Schema

/-- The offsets are words of 32 bits. -/
structure Location.Fits (place : Location) : Prop where
  start : place.start < offsetLimit
  stop : place.stop < offsetLimit

/-- An integer is a word of 64 bits with sign. -/
def AttributeValue.Fits : AttributeValue → Prop
  | integer value => -0x8000000000000000 ≤ value ∧ value ≤ 0x7FFFFFFFFFFFFFFF
  | _ => True

/-- The values of an attribute are in range, and its named arguments have different names. -/
structure Attribute.Fits (mark : Attribute) : Prop where
  arguments : ∀ value ∈ mark.arguments, value.Fits
  namedArguments : ∀ entry ∈ mark.namedArguments, entry.2.Fits
  names : (mark.namedArguments.map Prod.fst).Nodup
  location : mark.location.Fits

/-- The values in a declaration are in range, and named arguments have different names. -/
structure Declaration.Fits (declaration : Declaration) : Prop where
  attributes : ∀ mark ∈ declaration.attributes, mark.Fits
  methods : ∀ method ∈ declaration.methods, method.location.Fits
  location : declaration.location.Fits

/-- The types that are written for a generic shape. -/
def Generics.writtenTypes : Generics → List TypeExpr
  | closedOver _ arguments => arguments
  | _ => []

/-- The types that are written for a method. -/
def Method.writtenTypes (method : Method) : List TypeExpr :=
  method.returnType :: method.parameters

/-- The types that are written for a declaration. -/
def Declaration.writtenTypes (declaration : Declaration) : List TypeExpr :=
  declaration.generics.writtenTypes ++ declaration.interfaces ++
    declaration.methods.flatMap Method.writtenTypes

/-! ## The parts of a declaration -/

/-- The fields of a location: the file only where there is one. -/
theorem Location.fields_toJson (place : Location) :
    namedFields? ["file", "start", "end"] place.toJson =
      some [place.file.map .string, some (.integer place.start), some (.integer place.stop)] := by
  obtain ⟨file, start, stop⟩ := place
  cases file <;> rfl

/-- What is written for a location is read as that location. -/
theorem Location.ofJson?_toJson {place : Location} (h : place.Fits) :
    ofJson? place.toJson = some place := by
  refine bind_of_eq_some place.fields_toJson ?_
  refine bind_of_eq_some (nullable_map_string _) ?_
  refine bind_of_eq_some (offset_integer h.start) ?_
  exact bind_of_eq_some (offset_integer h.stop) rfl

/-- What is written for a generic shape is read as that shape. -/
theorem Generics.ofJson?_toJson {generics : Generics}
    (h : ∀ t ∈ generics.writtenTypes, TypeExpr.parse t.display = .ok t) :
    ofJson? generics.toJson = some generics := by
  cases generics with
  | notGeneric => rfl
  | openOver parameters =>
    change (listOf Json.asString? (strings parameters)).bind (fun read => some (openOver read)) = _
    rw [listOf_strings, Option.bind_some]
  | closedOver definition arguments =>
    change (listOf typeExpr (Schema.types arguments)).bind
      (fun read => some (closedOver definition read)) = _
    rw [listOf_types (show ∀ t ∈ arguments, TypeExpr.parse t.display = .ok t from h),
      Option.bind_some]

/-- What is written for a value that fits is read as that value. -/
theorem Schema.attributeValue_toJson {value : AttributeValue} (h : value.Fits) :
    attributeValue value.toJson = some value := by
  cases value with
  | integer value => simp [attributeValue, AttributeValue.toJson, integerBetween, h.1, h.2]
  | bool value => rfl
  | string value => rfl

/-- A named argument of a new name is put behind the others. -/
theorem Attribute.setNamed_of_notMem {name : String} {value : AttributeValue}
    {entries : List (String × AttributeValue)} (h : name ∉ entries.map Prod.fst) :
    setNamed name value entries = entries ++ [(name, value)] := by
  induction entries with
  | nil => rfl
  | cons entry entries ih =>
    simp only [List.map_cons, List.mem_cons, not_or] at h
    rw [setNamed, if_neg (Ne.symm h.1), ih h.2, List.cons_append]

/-- Named arguments with different names are all kept, in their order. -/
theorem Schema.namedValues_object {entries : List (String × AttributeValue)}
    (hfits : ∀ entry ∈ entries, entry.2.Fits) (hnames : (entries.map Prod.fst).Nodup) :
    namedValues (.object (entries.map fun (name, value) => (name, value.toJson))) =
      some entries := by
  -- The entries that have been read stand in front of those that are still to be read.
  suffices h : ∀ before : List (String × AttributeValue),
      ((before ++ entries).map Prod.fst).Nodup →
        (entries.map fun (name, value) => (name, value.toJson)).foldlM (fun read member => do
          some (Attribute.setNamed member.1 (← attributeValue member.2) read)) before =
        some (before ++ entries) from h [] hnames
  clear hnames
  induction entries with
  | nil => simp
  | cons entry entries ih =>
    intro before hnames
    obtain ⟨hentry, hentries⟩ := List.forall_mem_cons.mp hfits
    have hnew : entry.1 ∉ before.map Prod.fst := by
      rw [List.map_append, List.map_cons] at hnames
      exact fun hmem => (List.nodup_append.mp hnames).2.2 _ hmem _ (.head _) rfl
    rw [List.append_cons] at hnames ⊢
    rw [List.map_cons, List.foldlM_cons, attributeValue_toJson hentry]
    simp only [Option.bind_eq_bind, Option.bind_some, Attribute.setNamed_of_notMem hnew]
    exact ih hentries _ hnames

theorem Attribute.fields_toJson (mark : Attribute) :
    fields? ["name", "arguments", "named_arguments", "location"] mark.toJson = some
      [some (.string mark.name), some (.array (mark.arguments.map AttributeValue.toJson)),
       some (.object (mark.namedArguments.map fun (name, value) => (name, value.toJson))),
       some mark.location.toJson] := rfl

/-- What is written for an attribute is read as that attribute. -/
theorem Attribute.ofJson?_toJson {mark : Attribute} (h : mark.Fits) :
    ofJson? mark.toJson = some mark := by
  have harguments := listOf_map AttributeValue.toJson fun value hvalue =>
    attributeValue_toJson (h.arguments value hvalue)
  have hnamed := namedValues_object h.namedArguments h.names
  have hlocation := Location.ofJson?_toJson h.location
  refine bind_of_eq_some mark.fields_toJson ?_
  refine bind_of_eq_some rfl ?_
  refine bind_of_eq_some harguments ?_
  refine bind_of_eq_some hnamed ?_
  exact bind_of_eq_some hlocation rfl

/-- The fields of a method: what declares it only where that is said. -/
theorem Method.fields_toJson (method : Method) :
    fields? ["name", "return_type", "parameters", "declared_in", "location"] method.toJson = some
      [some (.string method.name), some (.string method.returnType.display),
       some (Schema.types method.parameters), method.declaredIn.map .string,
       some method.location.toJson] := by
  obtain ⟨name, returnType, parameters, declaredIn, location⟩ := method
  cases declaredIn <;> rfl

/-- What is written for a method is read as that method. -/
theorem Method.ofJson?_toJson {method : Method} (hlocation : method.location.Fits)
    (htypes : ∀ t ∈ method.writtenTypes, TypeExpr.parse t.display = .ok t) :
    ofJson? method.toJson = some method := by
  obtain ⟨hreturn, hparameters⟩ := List.forall_mem_cons.mp htypes
  have hreturn := typeExpr_display hreturn
  have hparameters := listOf_types hparameters
  have hlocation := Location.ofJson?_toJson hlocation
  refine bind_of_eq_some method.fields_toJson ?_
  refine bind_of_eq_some rfl ?_
  refine bind_of_eq_some hreturn ?_
  refine bind_of_eq_some hparameters ?_
  refine bind_of_eq_some (nullable_map_string _) ?_
  exact bind_of_eq_some hlocation rfl

/-! ## Declarations -/

namespace Declaration

/-- The fields of a declaration: the type around it only where there is one. -/
theorem fields_toJson (declaration : Declaration) :
    fields? keys declaration.toJson = some
      [some (.string declaration.name), some (.string declaration.fullName),
       some (.string declaration.namespaceName), some (.string declaration.kind.word),
       some (.string declaration.accessibility.word), some (.bool declaration.isPartial),
       declaration.containingType.map .string, some declaration.generics.toJson,
       some (Schema.types declaration.interfaces),
       some (.array (declaration.attributes.map Attribute.toJson)),
       some (.array (declaration.methods.map Method.toJson)),
       some declaration.location.toJson] := by
  obtain ⟨name, fullName, namespaceName, kind, accessibility, isPartial, containingType, generics,
    interfaces, attributes, methods, location⟩ := declaration
  cases containingType <;> rfl

/-- What is written for a declaration is read as that declaration. -/
theorem ofJson?_toJson {declaration : Declaration} (hfits : declaration.Fits)
    (htypes : ∀ t ∈ declaration.writtenTypes, TypeExpr.parse t.display = .ok t) :
    ofJson? declaration.toJson = some declaration := by
  have hgenerics : Generics.ofJson? declaration.generics.toJson = some declaration.generics :=
    Generics.ofJson?_toJson fun t ht => htypes t (by simp [writtenTypes, ht])
  have hinterfaces :
      listOf typeExpr (Schema.types declaration.interfaces) = some declaration.interfaces :=
    listOf_types fun t ht => htypes t (by simp [writtenTypes, ht])
  have hattributes := listOf_map Attribute.toJson fun mark hmark =>
    Attribute.ofJson?_toJson (hfits.attributes mark hmark)
  have hmethods := listOf_map Method.toJson fun method hmethod =>
    Method.ofJson?_toJson (hfits.methods method hmethod) fun t ht =>
      htypes t (List.mem_append_right _ (List.mem_flatMap.mpr ⟨method, hmethod, ht⟩))
  have hlocation := Location.ofJson?_toJson hfits.location
  refine bind_of_eq_some declaration.fields_toJson ?_
  -- The name, the full name and the namespace.
  refine bind_of_eq_some rfl (bind_of_eq_some rfl (bind_of_eq_some rfl ?_))
  refine bind_of_eq_some (word_typeKinds _) ?_
  refine bind_of_eq_some (word_accessibilities _) ?_
  -- Whether it is partial, and the type around it.
  refine bind_of_eq_some rfl (bind_of_eq_some (nullable_map_string _) ?_)
  refine bind_of_eq_some hgenerics ?_
  refine bind_of_eq_some hinterfaces ?_
  refine bind_of_eq_some hattributes ?_
  refine bind_of_eq_some hmethods ?_
  exact bind_of_eq_some hlocation rfl

variable {declarations : List Declaration} {document : Json}

/-- Declarations that are written and read again are the same declarations in the same order,
however the schema objects are spelled: as an array or under `types`, with their keys in any order,
and with unknown keys in them. -/
theorem read_toJson_of_respelled (hfits : ∀ declaration ∈ declarations, declaration.Fits)
    (htypes : ∀ declaration ∈ declarations, ∀ t ∈ declaration.writtenTypes,
      TypeExpr.parse t.display = .ok t)
    (hdocument : RespelledList (.array (declarations.map toJson)) document) :
    listOfJson? document = some declarations := by
  rw [listOfJson?_respelled hdocument]
  exact listOf_map toJson fun declaration hdeclaration =>
    ofJson?_toJson (hfits declaration hdeclaration) (htypes declaration hdeclaration)

/-- A box of integers, declared as an applied definition. -/
def intBox : Declaration where
  name := "Box"
  fullName := "N.Box<int>"
  namespaceName := "N"
  kind := .interface
  generics := .closedOver "N.Box<T>" [⟨"int", [], ""⟩]
  interfaces := [⟨"CrossChannel.IRadioService", [], ""⟩]
  attributes := [⟨markerName, [], [("MaxLinks", .integer 4), ("Lazy", .bool true)], {}⟩]
  methods :=
    [⟨"Put", ⟨"void", [], ""⟩, [⟨"int", [], "[]"⟩], some "N.IBase", ⟨some "Box.cs", 4, 10⟩⟩]

/-- The members of the box, last one first, with an unknown one. In the generic shape the kind
stands last, behind the parameters that a definition would have. -/
def intBoxMembers : List (String × Json) :=
  [("remark", .null), ("location", .object [("end", .integer 0), ("start", .integer 0)]),
   ("methods", .array (intBox.methods.map Method.toJson)),
   ("attributes", .array (intBox.attributes.map Attribute.toJson)),
   ("interfaces", .array [.string "CrossChannel.IRadioService"]),
   ("generics", .object [("parameters", .array []), ("arguments", .array [.string "int"]),
     ("definition", .string "N.Box<T>"), ("kind", .string "closed")]),
   ("is_partial", .bool false), ("accessibility", .string "public"),
   ("kind", .string "interface"), ("namespace", .string "N"), ("full_name", .string "N.Box<int>"),
   ("name", .string "Box")]

/-- The box is read from these members. -/
theorem read_intBox :
    RespelledList (.array [intBox.toJson])
        (.object [("version", .integer 2), ("types", .array [.object intBoxMembers])]) ∧
      listOfJson? (.object [("version", .integer 2), ("types", .array [.object intBoxMembers])]) =
        some [intBox] := by
  have hlocation : Location.Respelled intBox.location.toJson
      (.object [("end", .integer 0), ("start", .integer 0)]) :=
    @Respelled.object _ _ _ _ [] _ (.cons ⟨rfl, rfl⟩ (.cons ⟨rfl, rfl⟩ .nil))
      (List.forall_mem_nil _) (.swap _ _ _)
  have hgenerics : Generics.Respelled intBox.generics.toJson
      (.object [("parameters", .array []), ("arguments", .array [.string "int"]),
        ("definition", .string "N.Box<T>"), ("kind", .string "closed")]) :=
    @Respelled.object _ _ _ _ [("parameters", .array [])] _
      (.cons ⟨rfl, rfl⟩ (.cons ⟨rfl, rfl⟩ (.cons ⟨rfl, rfl⟩ .nil))) (by decide)
      (List.reverse_perm _).symm
  have hbox : Declaration.Respelled intBox.toJson (.object intBoxMembers) := by
    refine @Respelled.object _ _ _ intBoxMembers.tail.reverse [("remark", .null)] _ ?_
      (by simp [keys]) (List.reverse_perm intBoxMembers).symm
    exact .cons ⟨rfl, rfl⟩ <| .cons ⟨rfl, rfl⟩ <| .cons ⟨rfl, rfl⟩ <| .cons ⟨rfl, rfl⟩ <|
      .cons ⟨rfl, rfl⟩ <| .cons ⟨rfl, rfl⟩ <| .cons ⟨rfl, hgenerics⟩ <| .cons ⟨rfl, rfl⟩ <|
      .cons ⟨rfl, .array (.cons (.same _) .nil)⟩ <| .cons ⟨rfl, .array (.cons (.same _) .nil)⟩ <|
      .cons ⟨rfl, hlocation⟩ .nil
  have hdocument : RespelledList (.array [intBox.toJson])
      (.object [("version", .integer 2), ("types", .array [.object intBoxMembers])]) :=
    .wrapped (@Respelled.object _ _ _ [("types", .array [.object intBoxMembers])]
      [("version", .integer 2)] _ (.cons ⟨rfl, .array (.cons hbox .nil)⟩ .nil) (by simp)
      (.swap _ _ _))
  have hunknown : Location.Fits {} := ⟨by decide, by decide⟩
  have hfits : intBox.Fits :=
    { attributes := List.forall_mem_singleton.mpr
        { arguments := List.forall_mem_nil _
          namedArguments := by simp [AttributeValue.Fits]
          names := by decide
          location := hunknown }
      methods := List.forall_mem_singleton.mpr ⟨by decide, by decide⟩
      location := hunknown }
  have htypes : ∀ t ∈ intBox.writtenTypes, TypeExpr.parse t.display = .ok t := by
    intro t ht
    have hwritten : t ∈ [⟨"int", [], ""⟩, ⟨"CrossChannel.IRadioService", [], ""⟩,
      ⟨"void", [], ""⟩, ⟨"int", [], "[]"⟩] := ht
    simp only [List.mem_cons, List.not_mem_nil, or_false] at hwritten
    rcases hwritten with rfl | rfl | rfl | rfl <;> decide +kernel
  exact ⟨hdocument, read_toJson_of_respelled (List.forall_mem_singleton.mpr hfits)
    (List.forall_mem_singleton.mpr htypes) hdocument⟩

end Declaration

end RadioBroker

/-
  Values in which no object has a key twice.

  JSON and YAML texts give only such values, since of equal keys the last value
  takes the first one's place.

  * `Json.objects` are the objects of a value at any depth, and
    `Json.DistinctKeys` and `Json.Lacks` speak of all their keys;
  * `Json.Reader.Holds` is kept by every token, `Json.Reader.holds_step`;
  * `SourceFormat.distinctKeys_read`: what a text spells has distinct keys.
-/
import ApiDigest.Loading
import ApiDigest.Proofs.Lookup

namespace ApiDigest

namespace Json

/-! ## Objects at any depth -/

mutual

/-- The fields of the objects in a value, its own first. -/
def objects : Json → List (List (String × Json))
  | .obj fields => fields :: fieldObjects fields
  | .arr items => itemObjects items
  | _ => []

/-- The objects in the values of fields. -/
def fieldObjects : List (String × Json) → List (List (String × Json))
  | [] => []
  | (_, value) :: rest => objects value ++ fieldObjects rest

/-- The objects in items. -/
def itemObjects : List Json → List (List (String × Json))
  | [] => []
  | value :: rest => objects value ++ itemObjects rest

end

theorem mem_fieldObjects {object : List (String × Json)} : ∀ {fields : List (String × Json)},
    object ∈ fieldObjects fields ↔ ∃ field ∈ fields, object ∈ field.2.objects
  | [] => by simp [fieldObjects]
  | (_, value) :: rest => by simp [fieldObjects, @mem_fieldObjects object rest]

theorem mem_itemObjects {object : List (String × Json)} : ∀ {items : List Json},
    object ∈ itemObjects items ↔ ∃ item ∈ items, object ∈ item.objects
  | [] => by simp [itemObjects]
  | value :: rest => by simp [itemObjects, @mem_itemObjects object rest]

/-- No object in the value has a key twice. -/
def DistinctKeys (value : Json) : Prop := ∀ fields ∈ value.objects, (Fields.keys fields).Nodup

/-- No object in the value has the key. -/
def Lacks (key : String) (value : Json) : Prop :=
  ∀ fields ∈ value.objects, key ∉ Fields.keys fields

instance (value : Json) : Decidable value.DistinctKeys :=
  inferInstanceAs (Decidable (∀ fields ∈ value.objects, (Fields.keys fields).Nodup))

instance (key : String) (value : Json) : Decidable (value.Lacks key) :=
  inferInstanceAs (Decidable (∀ fields ∈ value.objects, key ∉ Fields.keys fields))

section
variable {fields : List (String × Json)} {items : List Json} {key k : String} {value : Json}

theorem objects_field (h : (k, value) ∈ fields) : value.objects ⊆ (Json.obj fields).objects := by
  intro object hobject
  exact List.mem_cons_of_mem _ (mem_fieldObjects.2 ⟨(k, value), h, hobject⟩)

theorem objects_item (h : value ∈ items) : value.objects ⊆ (Json.arr items).objects := by
  intro object hobject
  exact mem_itemObjects.2 ⟨value, h, hobject⟩

/-- What holds of every object in an object. -/
theorem forall_objects_obj {P : List (String × Json) → Prop} :
    (∀ object ∈ (Json.obj fields).objects, P object) ↔
      P fields ∧ ∀ field ∈ fields, ∀ object ∈ field.2.objects, P object := by
  simp only [objects, List.forall_mem_cons, mem_fieldObjects]
  constructor
  · rintro ⟨h, hfields⟩
    exact ⟨h, fun field hmem object hobject => hfields object ⟨field, hmem, hobject⟩⟩
  · rintro ⟨h, hfields⟩
    exact ⟨h, fun object ⟨field, hmem, hobject⟩ => hfields field hmem object hobject⟩

/-- What holds of every object in an array. -/
theorem forall_objects_arr {P : List (String × Json) → Prop} :
    (∀ object ∈ (Json.arr items).objects, P object) ↔
      ∀ item ∈ items, ∀ object ∈ item.objects, P object := by
  simp only [objects, mem_itemObjects]
  constructor
  · intro h item hmem object hobject
    exact h object ⟨item, hmem, hobject⟩
  · rintro h object ⟨item, hmem, hobject⟩
    exact h item hmem object hobject

theorem distinctKeys_obj_iff : (Json.obj fields).DistinctKeys ↔
    (Fields.keys fields).Nodup ∧ ∀ field ∈ fields, field.2.DistinctKeys :=
  forall_objects_obj

theorem distinctKeys_arr_iff :
    (Json.arr items).DistinctKeys ↔ ∀ item ∈ items, item.DistinctKeys :=
  forall_objects_arr

theorem distinctKeys_of_objects (h : value.objects = []) : value.DistinctKeys := by
  simp [DistinctKeys, h]

namespace DistinctKeys

theorem keys (h : (Json.obj fields).DistinctKeys) : (Fields.keys fields).Nodup :=
  (distinctKeys_obj_iff.1 h).1

theorem field (h : (Json.obj fields).DistinctKeys) (hmem : (k, value) ∈ fields) :
    value.DistinctKeys :=
  (distinctKeys_obj_iff.1 h).2 _ hmem

theorem item (h : (Json.arr items).DistinctKeys) (hmem : value ∈ items) : value.DistinctKeys :=
  distinctKeys_arr_iff.1 h _ hmem

theorem get? {part : Json} (h : value.DistinctKeys) (hget : value.get? k = some part) :
    part.DistinctKeys := by
  obtain ⟨fields, hfields, hget⟩ := Option.bind_eq_some_iff.1 hget
  rw [Json.eq_obj_of_fields? hfields] at h
  exact h.field (Fields.mem_of_get? hget)

theorem object (h : value.DistinctKeys) (hobject : (value.get? k).bind Json.fields? = some fields) :
    (Json.obj fields).DistinctKeys := by
  obtain ⟨part, hpart, hfields⟩ := Option.bind_eq_some_iff.1 hobject
  exact Json.eq_obj_of_fields? hfields ▸ h.get? hpart

theorem fieldsAt (h : value.DistinctKeys) (k : String) :
    (Json.obj (value.fieldsAt k)).DistinctKeys := by
  rw [Json.fieldsAt]
  cases hobject : (value.get? k).bind Json.fields? with
  | none => exact (by decide : (Json.obj []).DistinctKeys)
  | some fields => exact h.object hobject

theorem insert (h : (Json.obj fields).DistinctKeys) (key : String) (hvalue : value.DistinctKeys) :
    (Json.obj (Fields.insert key value fields)).DistinctKeys := by
  refine distinctKeys_obj_iff.2 ⟨Fields.nodup_keys_insert key value h.keys, ?_⟩
  rintro ⟨k, v⟩ hmem
  have hget := Fields.get?_of_mem (Fields.nodup_keys_insert key value h.keys) hmem
  rw [Fields.get?_insert] at hget
  split_ifs at hget
  · exact Option.some.inj hget ▸ hvalue
  · exact h.field (Fields.mem_of_get? hget)

end DistinctKeys

namespace Lacks

theorem keys (h : (Json.obj fields).Lacks key) : key ∉ Fields.keys fields :=
  h fields List.mem_cons_self

theorem field (h : (Json.obj fields).Lacks key) (hmem : (k, value) ∈ fields) : value.Lacks key :=
  fun object hobject => h object (objects_field hmem hobject)

theorem item (h : (Json.arr items).Lacks key) (hmem : value ∈ items) : value.Lacks key :=
  fun object hobject => h object (objects_item hmem hobject)

end Lacks
end

/-! ## Values of JSON texts -/

/-- A token that is a value has no object inside. -/
def Token.IsFlat : Token → Prop
  | .scalar value => value.objects = []
  | _ => True

namespace Lexer

variable {lexer next : Lexer} {out : List Token} {c : Char} {value : Json} {chars : List Char}

theorem flat_wordValue (h : wordValue chars = some value) : (Token.scalar value).IsFlat := by
  simp only [wordValue] at h
  split_ifs at h
  · cases h; rfl
  · cases h; rfl
  · cases h; rfl
  · obtain ⟨n, -, rfl⟩ := Option.map_eq_some_iff.1 h
    rfl

theorem flat_enter (hout : ∀ token ∈ out, token.IsFlat) (h : enter out c = some next) :
    ∀ token ∈ next.out, token.IsFlat := by
  simp only [enter] at h
  split_ifs at h
  · cases h; exact hout
  · cases h; exact hout
  · split at h <;> cases h
    · exact hout
    -- what else may stand here is a bracket or a mark
    all_goals exact List.forall_mem_cons.2 ⟨trivial, hout⟩

theorem flat_step (hout : ∀ token ∈ lexer.out, token.IsFlat) (h : lexer.step c = some next) :
    ∀ token ∈ next.out, token.IsFlat := by
  obtain ⟨mode, out⟩ := lexer
  cases mode with
  | between => exact flat_enter hout h
  | word chars =>
    simp only [step] at h
    split_ifs at h
    · cases h; exact hout
    · obtain ⟨value, hvalue, henter⟩ := Option.bind_eq_some_iff.1 h
      exact flat_enter (List.forall_mem_cons.2 ⟨flat_wordValue hvalue, hout⟩) henter
  | string parts =>
    simp only [step] at h
    split_ifs at h
    · obtain ⟨text, -, rfl⟩ := Option.map_eq_some_iff.1 h
      exact List.forall_mem_cons.2 ⟨rfl, hout⟩
    · cases h; exact hout
    · cases h; exact hout
  | escape parts =>
    simp only [step] at h
    split_ifs at h
    · cases h; exact hout
    · obtain ⟨d, -, rfl⟩ := Option.map_eq_some_iff.1 h
      exact hout
  | unit parts missing value =>
    obtain ⟨d, -, rfl⟩ := Option.map_eq_some_iff.1 h
    cases missing <;> exact hout

end Lexer

/-- What every step keeps, a run keeps. -/
theorem foldlM_keeps {σ α : Type} {step : σ → α → Option σ} {P : σ → Prop} :
    ∀ {l : List α} {s t : σ}, (∀ a ∈ l, ∀ s t, P s → step s a = some t → P t) → P s →
      l.foldlM step s = some t → P t
  | [], _, _, _, hs, h => by cases h; exact hs
  | a :: rest, s, t, hstep, hs, h => by
    rw [List.foldlM_cons] at h
    obtain ⟨next, hnext, hrest⟩ := Option.bind_eq_some_iff.1 h
    obtain ⟨ha, hall⟩ := List.forall_mem_cons.1 hstep
    exact foldlM_keeps hall (ha s next hs hnext) hrest

theorem flat_tokens {text : List Char} {out : List Token} (h : tokens text = some out) :
    ∀ token ∈ out, token.IsFlat := by
  obtain ⟨lexer, hrun, hfinish⟩ := Option.bind_eq_some_iff.1 h
  have hout : ∀ token ∈ lexer.out, token.IsFlat :=
    foldlM_keeps (P := fun lexer => ∀ token ∈ lexer.out, token.IsFlat)
      (fun _ _ _ _ => Lexer.flat_step) (by simp) hrun
  obtain ⟨mode, out'⟩ := lexer
  cases mode with
  | between =>
    cases hfinish
    simpa using hout
  | word chars =>
    obtain ⟨value, hvalue, rfl⟩ := Option.map_eq_some_iff.1 hfinish
    have hword := Lexer.flat_wordValue hvalue
    simpa [or_imp, forall_and, hword] using hout
  | _ => exact absurd hfinish (by simp [Lexer.finish])

namespace Reader

/-- What is open holds values with distinct keys only. -/
def FrameHolds : Frame → Prop
  | .array items => ∀ item ∈ items, item.DistinctKeys
  | .object fields _ => (Json.obj fields).DistinctKeys

/-- So does the whole state of a reader. -/
structure Holds (reader : Reader) : Prop where
  stack : ∀ frame ∈ reader.stack, FrameHolds frame
  done : ∀ value ∈ reader.value?, value.DistinctKeys

variable {stack : List Frame} {reader next : Reader} {value : Json} {token : Token}

theorem holds_supply (hvalue : value.DistinctKeys) (hstack : ∀ frame ∈ stack, FrameHolds frame) :
    (supply value stack).Holds := by
  cases stack with
  | nil => exact ⟨by simp [supply], by simpa [supply, value?] using hvalue⟩
  | cons frame rest =>
    obtain ⟨hframe, hrest⟩ := List.forall_mem_cons.1 hstack
    cases frame with
    | array items =>
      exact ⟨List.forall_mem_cons.2 ⟨List.forall_mem_cons.2 ⟨hvalue, hframe⟩, hrest⟩,
        by simp [supply, value?]⟩
    | object fields key =>
      exact ⟨List.forall_mem_cons.2 ⟨DistinctKeys.insert hframe key hvalue, hrest⟩,
        by simp [supply, value?]⟩

theorem holds_closeArray (hstack : ∀ frame ∈ stack, FrameHolds frame)
    (h : closeArray stack = some next) : next.Holds := by
  match stack, h with
  | .array items :: rest, h =>
    obtain ⟨hframe, hrest⟩ := List.forall_mem_cons.1 hstack
    cases h
    exact holds_supply (distinctKeys_arr_iff.2 fun item hmem =>
      hframe item (List.mem_reverse.1 hmem)) hrest

theorem holds_closeObject (hstack : ∀ frame ∈ stack, FrameHolds frame)
    (h : closeObject stack = some next) : next.Holds := by
  match stack, h with
  | .object fields _ :: rest, h =>
    obtain ⟨hframe, hrest⟩ := List.forall_mem_cons.1 hstack
    cases h
    exact holds_supply hframe hrest

theorem holds_push {frame : Frame} {expected : Expected} (hframe : FrameHolds frame)
    (hexpected : ∀ value, expected ≠ .done value) (hstack : ∀ frame ∈ stack, FrameHolds frame)
    (h : push frame expected stack = some next) : next.Holds := by
  simp only [push] at h
  split_ifs at h
  cases h
  refine ⟨List.forall_mem_cons.2 ⟨hframe, hstack⟩, ?_⟩
  cases expected with
  | done value => exact absurd rfl (hexpected value)
  | _ => simp [value?]

theorem holds_startValue (hstack : ∀ frame ∈ stack, FrameHolds frame) (htoken : token.IsFlat)
    (h : startValue stack token = some next) : next.Holds := by
  cases token with
  | scalar value => cases h; exact holds_supply (distinctKeys_of_objects htoken) hstack
  | openArray =>
    have hframe : FrameHolds (.array []) := by simp [FrameHolds]
    exact holds_push hframe (by simp) hstack h
  | openObject =>
    have hframe : FrameHolds (.object [] "") := show (Json.obj []).DistinctKeys by decide
    exact holds_push hframe (by simp) hstack h
  | _ => simp [startValue] at h

theorem holds_startKey (hstack : ∀ frame ∈ stack, FrameHolds frame)
    (h : startKey stack token = some next) : next.Holds := by
  match stack, token, h with
  | .object fields key :: rest, .scalar (.str key'), h =>
    obtain ⟨hframe, hrest⟩ := List.forall_mem_cons.1 hstack
    cases h
    exact ⟨List.forall_mem_cons.2 ⟨hframe, hrest⟩, by simp [value?]⟩

theorem holds_continue (hstack : ∀ frame ∈ stack, FrameHolds frame)
    (h : continue? stack token = some next) : next.Holds := by
  cases token with
  | comma =>
    match stack, h with
    | .array _ :: _, h => cases h; exact ⟨hstack, by simp [value?]⟩
    | .object _ _ :: _, h => cases h; exact ⟨hstack, by simp [value?]⟩
  | closeArray => exact holds_closeArray hstack h
  | closeObject => exact holds_closeObject hstack h
  | _ => simp [continue?] at h

/-- **Every token keeps the keys of what is read distinct.** -/
theorem holds_step (hreader : reader.Holds) (htoken : token.IsFlat)
    (h : reader.step token = some next) : next.Holds := by
  obtain ⟨stack, expected⟩ := reader
  have hstack := hreader.stack
  cases expected with
  | value => exact holds_startValue hstack htoken h
  | firstItem =>
    cases token with
    | closeArray => exact holds_closeArray hstack h
    | _ => exact holds_startValue hstack htoken h
  | key => exact holds_startKey hstack h
  | firstKey =>
    cases token with
    | closeObject => exact holds_closeObject hstack h
    | _ => exact holds_startKey hstack h
  | colon =>
    cases token with
    | colon => cases h; exact ⟨hstack, by simp [value?]⟩
    | _ => simp [step] at h
  | next => exact holds_continue hstack h
  | done value => simp [step] at h

end Reader

theorem distinctKeys_read {text : String} {value : Json} (h : Json.read text = some value) :
    value.DistinctKeys := by
  obtain ⟨ts, hts, hrun⟩ := Option.bind_eq_some_iff.1 h
  obtain ⟨reader, hreader, hvalue⟩ := Option.bind_eq_some_iff.1 hrun
  have hholds : reader.Holds :=
    foldlM_keeps (fun token hmem _ _ hs => Reader.holds_step hs (flat_tokens hts token hmem))
      ⟨by simp, by simp [Reader.value?]⟩ hreader
  exact hholds.done value hvalue

end Json

/-! ## Values of YAML texts -/

theorem Json.distinctKeys_ofList {fields : List (String × Json)}
    (h : ∀ field ∈ fields, field.2.DistinctKeys) :
    (Json.obj (Fields.ofList fields)).DistinctKeys := by
  suffices hfold : ∀ acc : List (String × Json), (Json.obj acc).DistinctKeys →
      (Json.obj (fields.foldl (fun acc field => Fields.insert field.1 field.2 acc)
        acc)).DistinctKeys from hfold [] (by decide)
  induction fields with
  | nil => exact fun _ hacc => hacc
  | cons field rest ih =>
    obtain ⟨hfield, hrest⟩ := List.forall_mem_cons.1 h
    exact fun acc hacc => ih hrest _ (hacc.insert field.1 hfield)

namespace Yaml.Value

theorem distinctKeys_numberToJson (number : Value) : number.numberToJson.DistinctKeys := by
  refine Json.distinctKeys_of_objects ?_
  rw [numberToJson]
  split
  · rfl
  · split
    · rfl
    · cases number.rounded?.filter Binary64.isFinite <;> rfl

mutual

theorem distinctKeys_toJson : ∀ value : Value, value.toJson.DistinctKeys
  | .null | .bool _ | .string _ => Json.distinctKeys_of_objects rfl
  | .int _ | .double _ => distinctKeys_numberToJson _
  | .sequence items => Json.distinctKeys_arr_iff.2 (distinctKeys_itemsToJson items)
  | .mapping entries => Json.distinctKeys_ofList (distinctKeys_entriesToJson entries)
  | .tagged _ value => distinctKeys_toJson value

theorem distinctKeys_itemsToJson : ∀ items : List Value,
    ∀ item ∈ itemsToJson items, item.DistinctKeys
  | [] => by simp [itemsToJson]
  | item :: rest => List.forall_mem_cons.2
    ⟨distinctKeys_toJson item, distinctKeys_itemsToJson rest⟩

theorem distinctKeys_entriesToJson : ∀ entries : List (Value × Value),
    ∀ field ∈ entriesToJson entries, field.2.DistinctKeys
  | [] => by simp [entriesToJson]
  | (_, value) :: rest => List.forall_mem_cons.2
    ⟨distinctKeys_toJson value, distinctKeys_entriesToJson rest⟩

end

end Yaml.Value

/-- **What a text spells has distinct keys**, in every notation. -/
theorem SourceFormat.distinctKeys_read {text : String} {format : SourceFormat} {value : Json}
    (h : format.read text = some value) : value.DistinctKeys := by
  have hyaml : ∀ {value : Json},
      (Yaml.Value.ofText? text).map Yaml.Value.toJson = some value → value.DistinctKeys := by
    intro value h
    obtain ⟨v, -, rfl⟩ := Option.map_eq_some_iff.1 h
    exact v.distinctKeys_toJson
  cases format with
  | json => exact Json.distinctKeys_read h
  | yaml => exact hyaml h
  | either =>
    rcases Option.or_eq_some_iff.1 h with h | ⟨-, h⟩
    · exact Json.distinctKeys_read h
    · exact hyaml h

end ApiDigest

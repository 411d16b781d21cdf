import CatalogSync.Proofs.Collect
import CatalogSync.Proofs.Record.Unchecked
import CatalogSync.Schema.Unchecked

/-!
Checked schemas as unchecked ones. As long as nothing is set in its records, a schema has the same text
and the same findings whether its records are checked or not.
-/

namespace CatalogSync

namespace Unchecked

variable {kind : RecordName} {parts : List (String × (Json → Unchecked))}

/-! ### The text of a schema -/

theorem generatorText_unchecked (g : Generator) : g.unchecked.generatorText = .ok g.render := by
  simp only [generatorText, Generator.unchecked, Generator.toJson, member_ofObject, Json.lookup?,
    List.find?]
  simp [readPart, ok_bind]

theorem datasourceText_unchecked (d : Datasource) : d.unchecked.datasourceText = .ok d.render := by
  simp only [datasourceText, Datasource.unchecked, Datasource.toJson, member_ofObject, Json.lookup?,
    List.find?]
  simp [readPart, ok_bind]

/-- What may be absent in an object is written where it is there. -/
theorem piece_ofObject {α : Type} {members : List (LooseText × Json)} {name : String} {a? : Option α}
    {encode : α → Json} {write : Unchecked → Except Fault (List Char)} (text : α → List Char)
    (hlookup : Json.lookup? members (.text name) = some (Json.ofOption encode a?))
    (hnull : readPart parts (.text name) .null = .plain .null)
    (hthere : ∀ a, (readPart parts (.text name) (encode a)).isNull = false)
    (hwrite : ∀ a, write (readPart parts (.text name) (encode a)) = .ok (text a)) :
    (ofObject kind parts (.obj members)).piece name write = .ok (a?.map text).toList := by
  rw [piece, member_ofObject, hlookup]
  dsimp only
  rw [ok_bind]
  cases a? with
  | none =>
    have hvalue : Json.ofOption encode none = .null := rfl
    rw [hvalue, hnull]
    rfl
  | some a =>
    have hvalue : Json.ofOption encode (some a) = encode a := rfl
    rw [hvalue, hthere a, hwrite a]
    rfl

theorem uniqueText_unchecked (u : UniqueFlag) :
    (ofObject .uniqueFlag [] u.toJson).uniqueText = .ok u.render := by
  simp only [uniqueText, UniqueFlag.toJson, member_ofObject, Json.lookup?, List.find?]
  obtain ⟨_ | name⟩ := u
  · rfl
  · simp [readPart, Json.ofText?, Json.ofOption, isNull]

/-- Texts that stand in a row are joined as they are. -/
theorem joined_texts (separator : List Char) (first : Nat) (texts : List String) :
    joined separator first (texts.map fun s => .plain (.str (.text s))) =
      .ok (Text.joined separator (texts.map (·.toList))) := by
  have hitems : ∀ p ∈ (texts.map fun s => plain (.str (.text s))).zipIdx,
      ∃ s : String, p.1 = .plain (.str (.text s)) := by
    intro p hp
    obtain ⟨s, -, hs⟩ := List.mem_map.1 (List.fst_mem_of_mem_zipIdx hp)
    exact ⟨s, hs.symm⟩
  rw [joined, mapM_eq_ok_map (g := fun p => p.1.inline.toList), ok_bind]
  · have hfirst : ((texts.map fun s => plain (.str (.text s))).zipIdx.map fun p => p.1.inline.toList) =
        texts.map (·.toList) := by
      rw [← Function.comp_def (fun v : Unchecked => v.inline.toList) Prod.fst, ← List.map_map,
        List.zipIdx_map_fst, List.map_map]
      rfl
    rw [hfirst]
    rfl
  · rintro ⟨v, i⟩ hp
    obtain ⟨s, rfl⟩ := hitems _ hp
    rfl

/-- A part of a text that is joined itself. -/
theorem joined_joined (separator : List Char) (front back : List (List Char)) {inner : List (List Char)}
    (hinner : inner ≠ []) : Text.joined separator (front ++ Text.joined separator inner :: back) =
      Text.joined separator (front ++ inner ++ back) := by
  have hcons : ∀ (piece : List Char) {rest : List (List Char)}, rest ≠ [] →
      Text.joined separator (piece :: rest) = piece ++ separator ++ Text.joined separator rest := by
    intro piece rest hrest
    cases rest with
    | nil => exact absurd rfl hrest
    | cons next rest => rfl
  induction front with
  | nil =>
    induction inner with
    | nil => exact absurd rfl hinner
    | cons piece inner ih =>
      cases inner with
      | nil => rfl
      | cons next inner =>
        have hrest := ih (List.cons_ne_nil _ _)
        simp only [List.nil_append] at hrest ⊢
        rw [hcons piece (List.cons_ne_nil next inner), List.cons_append,
          hcons piece (by simp), ← hrest]
        cases back with
        | nil => rfl
        | cons b back => simp [Text.joined]
  | cons piece front ih =>
    rw [List.cons_append, List.cons_append, List.cons_append, hcons piece (by simp),
      hcons piece (by simp [hinner]), ih]

/-- Texts in a row, one by one. -/
theorem items_ofTexts (texts : List String) : (plain (Json.ofTexts texts)).items =
    .ok (texts.map fun s => .plain (.str (.text s))) := by
  simp [items, Json.ofTexts]

theorem namesText_ofTexts (names : List String) :
    (plain (Json.ofTexts names)).namesText = .ok (Relation.renderList names) := by
  rw [namesText, items_ofTexts, ok_bind, joined_texts, ok_bind]
  rfl

/-- Names behind a word that tells what they are. -/
theorem labelled_namesText (word : String) (names : List String) :
    (do return word.toList ++ (← (plain (Json.ofTexts names)).namesText) : Except Fault _) =
      .ok (word.toList ++ Relation.renderList names) := by
  rw [namesText_ofTexts]
  rfl

/-- A text between two others. -/
theorem toList_inline (before after s : String) :
    (before ++ (plain (.str (.text s))).inline ++ after).toList =
      before.toList ++ s.toList ++ after.toList := by
  rw [inline_text, String.toList_append, String.toList_append]

theorem toList_append_inline (before s : String) :
    (before ++ (plain (.str (.text s))).inline).toList = before.toList ++ s.toList := by
  rw [inline_text, String.toList_append]

theorem relationText_unchecked (r : Relation) :
    (ofObject .relation [] r.toJson).relationText = .ok r.render := by
  have hparts (name : String) (j : Json) : readPart [] (.text name) j = .plain j := rfl
  rw [relationText, Relation.toJson]
  dsimp only
  rw [piece_ofObject (fun names => "fields: ".toList ++ Relation.renderList names)
      (by simp [Json.lookup?]; rfl) rfl (fun _ => rfl) (labelled_namesText "fields: "), ok_bind]
  rw [piece_ofObject (fun names => "references: ".toList ++ Relation.renderList names)
      (by simp [Json.lookup?]; rfl) rfl (fun _ => rfl) (labelled_namesText "references: "), ok_bind]
  rw [piece_ofObject (fun name : String => "map: \"".toList ++ name.toList ++ ['"'])
      (by simp [Json.lookup?]; rfl) rfl (fun _ => rfl) fun s => by rw [hparts, toList_inline]; rfl, ok_bind]
  rw [piece_ofObject (fun action : String => "onDelete: ".toList ++ action.toList)
      (by simp [Json.lookup?]; rfl) rfl (fun _ => rfl) fun s => by
        rw [hparts, toList_inline]; simp, ok_bind]
  rw [piece_ofObject (fun action : String => "onUpdate: ".toList ++ action.toList)
      (by simp [Json.lookup?]; rfl) rfl (fun _ => rfl) fun s => by
        rw [hparts, toList_inline]; simp, ok_bind]
  rfl

/-- What stands in a field as it is. -/
theorem member_field {f : Field} {name : String} {value : Json}
    (hlookup : f.toJson.get? (.text name) = some value) (hunique : name ≠ "unique")
    (hrelation : name ≠ "relation") : f.unchecked.member name = .ok (.plain value) := by
  rw [Field.toJson, Json.get?] at hlookup
  rw [Field.unchecked, Field.ofWritten, Field.toJson, member_ofObject, hlookup]
  simp [readPart, hunique, hrelation]

theorem member_fieldName (f : Field) :
    f.unchecked.member "name" = .ok (.plain (.str (.text f.name))) :=
  member_field (by simp [Field.toJson, Json.get?, Json.lookup?]) (by simp) (by simp)

theorem member_fieldType (f : Field) :
    f.unchecked.member "type" = .ok (.plain (.str (.text f.type))) :=
  member_field (by simp [Field.toJson, Json.get?, Json.lookup?]) (by simp) (by simp)

/-- A field is marked as the key as it is when it is checked. -/
theorem member_isId (f : Field) : f.unchecked.member "is_id" = .ok (.plain (.bool f.isId)) :=
  member_field (by simp [Field.toJson, Json.get?, Json.lookup?]) (by simp) (by simp)

theorem attributes_unchecked (f : Field) (ids : Nat) :
    f.unchecked.attributes ids = .ok (f.renderAttributes ids) := by
  rw [attributes, member_isId, ok_bind, Field.unchecked, Field.ofWritten, Field.toJson]
  dsimp only
  rw [piece_ofObject UniqueFlag.render (by simp [Json.lookup?]; rfl) rfl (fun _ => rfl)
    uniqueText_unchecked, ok_bind]
  rw [piece_ofObject (fun e : String => "@default(".toList ++ e.toList ++ [')'])
      (by simp [Json.lookup?]; rfl) rfl (fun _ => rfl) fun e => congrArg _ (toList_inline "@default(" ")" e),
    ok_bind]
  rw [piece_ofObject (fun t : String => "@db.".toList ++ t.toList)
      (by simp [Json.lookup?]; rfl) rfl (fun _ => rfl) fun t => congrArg _ (toList_append_inline "@db." t),
    ok_bind]
  rw [piece_ofObject Relation.render (by simp [Json.lookup?]; rfl) rfl (fun _ => rfl)
    relationText_unchecked, ok_bind]
  rfl

section
variable [Room]

theorem filling_text (s : String) (width : Int) :
    (plain (.str (.text s))).filling (.plain (.int width)) = match widthFault? width with
      | some e => .error e
      | none => .ok (s.toList, width.toNat) := by
  rw [filling, count, ok_bind]
  cases widthFault? width <;> rfl

theorem fieldText_unchecked (f : Field) (nameWidth typeWidth : Int) (ids : Nat) :
    f.unchecked.fieldText (.plain (.int nameWidth)) (.plain (.int typeWidth)) ids =
      f.text nameWidth typeWidth ids := by
  rw [fieldText, Field.text, member_fieldName, member_fieldType, ok_bind, filling_text]
  cases widthFault? nameWidth with
  | some e => rfl
  | none =>
    rw [ok_bind]
    dsimp only
    rw [ok_bind, filling_text]
    cases widthFault? typeWidth with
    | some e => rfl
    | none =>
      rw [ok_bind, attributes_unchecked, ok_bind]
      have htail : f.render nameWidth.toNat typeWidth.toNat ids = Text.trimRight
          (Text.padRight nameWidth.toNat f.name.toList ++ ' ' :: f.renderTail typeWidth.toNat ids) := rfl
      rw [htail, Field.renderTail]
      cases f.renderAttributes ids <;> rfl

end

/-- What stands in a model as it is. -/
theorem member_model {m : Model} {name : String} {value : Json}
    (hlookup : m.toJson.get? (.text name) = some value) (hfields : name ≠ "fields") :
    m.unchecked.member name = .ok (.plain value) := by
  rw [Model.toJson, Json.get?] at hlookup
  rw [Model.unchecked, Model.toJson, member_ofObject, hlookup]
  simp [readPart, hfields]

theorem member_modelName (m : Model) :
    m.unchecked.member "name" = .ok (.plain (.str (.text m.name))) :=
  member_model (by simp [Model.toJson, Json.get?, Json.lookup?]) (by simp)

theorem member_directives (m : Model) :
    m.unchecked.member "directives" = .ok (.plain (Json.ofTexts m.directives)) :=
  member_model (by simp [Model.toJson, Json.get?, Json.lookup?]) (by simp)

/-- The fields of a model, as they stand in it. -/
theorem member_fields (m : Model) : m.unchecked.member "fields" =
    .ok (ofItems (m.fields.map (·.unchecked))) := by
  rw [Model.unchecked, Model.toJson, member_ofObject]
  simp [Json.lookup?, readPart, ofArray, Field.unchecked, Function.comp_def]

theorem idFields_unchecked (m : Model) : m.unchecked.idFields =
    .ok ((m.fields.filter (·.isId)).map (·.unchecked)) := by
  rw [idFields, member_fields, ok_bind, items_ofItems, ok_bind]
  refine filterM_map_eq_ok fun f _ => ?_
  rw [member_isId]
  rfl

section
variable [Room]

/-- The lines of the fields of a model, unless the widths are such as no text can have. -/
theorem fieldLines_unchecked (m : Model) : ((m.fields.map (·.unchecked)).mapM fun f => do
      let nameWidth ← m.unchecked.member "name_column_width"
      let typeWidth ← m.unchecked.member "type_column_width"
      return fieldIndent ++ (← f.fieldText nameWidth typeWidth m.idFieldCount)) =
    match m.widthFault? with
    | some e => .error e
    | none => .ok (m.fields.map fun f =>
        fieldIndent ++ f.render m.nameWidth m.typeWidth m.idFieldCount) := by
  have hname : m.unchecked.member "name_column_width" = .ok (.plain (.int m.nameWidth)) :=
    member_model (by simp [Model.toJson, Json.get?, Json.lookup?]) (by simp)
  have htype : m.unchecked.member "type_column_width" = .ok (.plain (.int m.typeWidth)) :=
    member_model (by simp [Model.toJson, Json.get?, Json.lookup?]) (by simp)
  have hline : ∀ f : Field,
      (do return fieldIndent ++ (← f.text m.nameWidth m.typeWidth m.idFieldCount) : Except Fault _) =
        match CatalogSync.widthFault? m.nameWidth <|> CatalogSync.widthFault? m.typeWidth with
        | some e => .error e
        | none => .ok (fieldIndent ++ f.render m.nameWidth m.typeWidth m.idFieldCount) := by
    intro f
    rw [Field.text]
    cases CatalogSync.widthFault? m.nameWidth <|> CatalogSync.widthFault? m.typeWidth <;> rfl
  simp only [hname, htype, ok_bind, List.mapM_map, Function.comp_def, fieldText_unchecked]
  rw [Model.widthFault?]
  cases hfields : m.fields with
  | nil => rfl
  | cons f fs =>
    rw [if_neg (List.cons_ne_nil f fs)]
    cases hfault : CatalogSync.widthFault? m.nameWidth <|> CatalogSync.widthFault? m.typeWidth with
    | some e =>
      rw [hfault] at hline
      rw [List.mapM_cons, hline f]
      rfl
    | none =>
      rw [hfault] at hline
      exact mapM_eq_ok_map fun f _ => hline f

theorem modelText_unchecked (m : Model) : m.unchecked.modelText = m.text := by
  rw [modelText, member_modelName, ok_bind, idFields_unchecked, ok_bind, member_fields, ok_bind, items_ofItems,
    ok_bind, List.length_map, ← Model.idFieldCount, fieldLines_unchecked, Model.text]
  cases m.widthFault? with
  | some e => rfl
  | none =>
    dsimp only
    have hbrace : " \x7b".toList = [' ', '{'] := rfl
    rw [ok_bind, member_directives, ok_bind, Model.render, Model.renderBody, toList_inline, hbrace]
    cases m.directives with
    | nil =>
      have hnone : ¬(plain (Json.ofTexts [])).isTruthy := by decide
      rw [if_neg hnone, if_pos rfl, pure_bind]
      rfl
    | cons line lines =>
      have hsome : (plain (Json.ofTexts (line :: lines))).isTruthy := rfl
      rw [if_pos hsome, items_ofTexts, ok_bind, joined_texts, ok_bind, if_neg (List.cons_ne_nil _ _),
        pure_bind]
      have hnested := joined_joined ['\n'] (("model ".toList ++ m.name.toList ++ [' ', '{']) ::
        (m.fields.map fun f => fieldIndent ++ f.render m.nameWidth m.typeWidth m.idFieldCount) ++
          [[]]) [['}']] (List.cons_ne_nil line.toList (lines.map (·.toList)))
      simp only [List.append_assoc, List.cons_append, List.nil_append] at hnested
      simp only [List.map_cons, List.append_assoc, List.cons_append, List.nil_append, hnested]
      rfl

end

end Unchecked

/-- A checked schema has one text, whether its records are checked or not. -/
theorem Schema.text_unchecked [Room] (s : Schema) : s.unchecked.text = s.text := by
  have hmodels : (s.models.mapM fun m => do return (← m.unchecked.modelText) ++ ['\n']) =
      (s.models.findSome? (·.widthFault?)).elim (.ok (s.models.map fun m => m.render ++ ['\n']))
        .error := by
    refine mapM_eq_of_findSome? (fun m : Model => m.render ++ ['\n']) (·.widthFault?) fun m _ => ?_
    rw [Unchecked.modelText_unchecked, Model.text]
    cases m.widthFault? <;> rfl
  rw [UncheckedSchema.text, unchecked, Unchecked.generatorText_unchecked, Unchecked.ok_bind,
    Unchecked.datasourceText_unchecked, Unchecked.ok_bind, List.mapM_map, text]
  simp only [Function.comp_def]
  rw [hmodels]
  cases s.models.findSome? (·.widthFault?) with
  | some e => rfl
  | none => exact congrArg Except.ok (by rw [render, List.flatMap_def])

namespace Unchecked

/-! ### Findings -/

theorem same_texts (s t : String) : Json.same (.str (.text s)) (.str (.text t)) = decide (s = t) := by
  simp [Json.same, Json.sameScalar, Json.worth?]

/-- A text is among texts exactly if one of them is the same. -/
theorem any_same (name : String) (names : List String) :
    (names.map fun s => Json.str (.text s)).any (Json.same (.str (.text name))) =
      decide (name ∈ names) := by
  simp [same_texts, List.any_eq]

/-- The repeated names of records whose names are texts. -/
theorem repeatedNames_texts {α : Type} {record : α → Unchecked} {name : α → String}
    (h : ∀ a, (record a).member "name" = .ok (.plain (.str (.text (name a))))) (seen : List String)
    (l : List α) : repeatedNames (seen.map fun s => .str (.text s)) (l.map record) =
      .ok ((repeats seen (l.map name)).map fun s => .str (.text s)) := by
  induction l generalizing seen with
  | nil => rfl
  | cons a l ih =>
    have hrest := ih (name a :: seen)
    rw [List.map_cons] at hrest
    rw [List.map_cons, repeatedNames, h a, ok_bind]
    have hname : (plain (.str (.text (name a)))).asName = .ok (.str (.text (name a))) := rfl
    rw [hname, ok_bind, hrest, ok_bind, any_same, List.map_cons, repeats]
    by_cases hseen : name a ∈ seen <;> simp [hseen] <;> rfl

theorem finding_unchecked (m : Model) (issue : String → Issue)
    (h : (issue m.name).finding = ⟨issue m.name, [("model", .str (.text m.name))]⟩) :
    m.unchecked.finding issue = .ok (issue m.name).finding := by
  rw [finding, member_modelName, ok_bind, h]
  rfl

/-- A finding about a field. -/
theorem fieldFinding_unchecked (m : Model) (name : String) (issue : String → String → Issue)
    (h : (issue m.name name).finding = ⟨issue m.name name,
      [("model", .str (.text m.name)), ("field", .str (.text name))]⟩) :
    m.unchecked.fieldFinding (.str (.text name)) issue = .ok (issue m.name name).finding := by
  rw [fieldFinding, finding, member_modelName, ok_bind, h]
  rfl

/-- What is found in each of some records, one after the other. -/
theorem gathered {α : Type} {record : α → Unchecked} {found : Unchecked → Except Fault (List Finding)}
    {issues : α → List Issue} {l : List α}
    (h : ∀ a ∈ l, found (record a) = .ok ((issues a).map (·.finding))) :
    (do return (← (l.map record).mapM found).flatten : Except Fault (List Finding)) =
      .ok ((l.flatMap issues).map (·.finding)) := by
  rw [List.mapM_map, mapM_eq_ok_map (f := found ∘ record) h, ok_bind,
    List.map_flatMap, List.flatMap_def]
  rfl

/-- The relation of a field, as it stands in it. -/
theorem member_relation (f : Field) : f.unchecked.member "relation" =
    .ok (ofObject .relation [] (Json.ofOption Relation.toJson f.relation)) := by
  rw [Field.unchecked, Field.ofWritten, Field.toJson, member_ofObject]
  simp [Json.lookup?, readPart]

theorem isMeaningful_unchecked (r : Relation) :
    (ofObject .relation [] r.toJson).isMeaningful = .ok r.isMeaningful := by
  have hnames (names : Option (List String)) :
      (plain (Json.ofOption Json.ofTexts names)).isTruthy = !(names.getD []).isEmpty := by
    cases names with
    | none => rfl
    | some names => cases names <;> rfl
  have hmap : (plain (Json.ofText? r.mapName)).isTruthy = decide (r.mapName.getD "" ≠ "") := by
    cases r.mapName with
    | none => rfl
    | some s => simp [Json.ofText?, Json.ofOption, isTruthy, Json.isTruthy]
  have hmembers (name : String) (value : Json) (hlookup : r.toJson.get? (.text name) = some value) :
      (ofObject .relation [] r.toJson).member name = .ok (.plain value) := by
    rw [Relation.toJson, Json.get?] at hlookup
    rw [Relation.toJson, member_ofObject, hlookup]
    rfl
  have hfields := hmembers "fields" (Json.ofOption Json.ofTexts r.fields)
    (by simp [Relation.toJson, Json.get?, Json.lookup?])
  have hreferences := hmembers "references" (Json.ofOption Json.ofTexts r.references)
    (by simp [Relation.toJson, Json.get?, Json.lookup?])
  have hmapName := hmembers "map_name" (Json.ofText? r.mapName)
    (by simp [Relation.toJson, Json.get?, Json.lookup?])
  have hrecord : (ofObject .relation [] r.toJson).isMeaningful = (do
      return (← (ofObject .relation [] r.toJson).member "fields").isTruthy ||
        (← (ofObject .relation [] r.toJson).member "references").isTruthy ||
        (← (ofObject .relation [] r.toJson).member "map_name").isTruthy) := rfl
  rw [hrecord, hfields, hreferences, hmapName, ok_bind, ok_bind, ok_bind, hnames, hnames, hmap]
  rfl

end Unchecked

namespace Schema

open Unchecked

variable (s : Schema)

theorem modelNameFindings_unchecked :
    s.unchecked.modelNameFindings = .ok (s.modelNameIssues.map (·.finding)) := by
  have hnames := repeatedNames_texts member_modelName [] s.models
  rw [List.map_nil] at hnames
  rw [UncheckedSchema.modelNameFindings, unchecked, hnames, ok_bind]
  simp [modelNameIssues, Function.comp_def]
  rfl

theorem fieldNameFindings_unchecked :
    s.unchecked.fieldNameFindings = .ok (s.fieldNameIssues.map (·.finding)) := by
  rw [UncheckedSchema.fieldNameFindings]
  refine gathered fun m _ => ?_
  have hnames := repeatedNames_texts member_fieldName [] m.fields
  rw [List.map_nil] at hnames
  rw [member_fields, ok_bind, items_ofItems, ok_bind, hnames, ok_bind, List.mapM_map, List.map_map]
  exact mapM_eq_ok_map fun name _ => fieldFinding_unchecked m name .duplicateFieldName rfl

theorem emptyModelFindings_unchecked :
    s.unchecked.emptyModelFindings = .ok (s.emptyModelIssues.map (·.finding)) := by
  have hissues : s.emptyModelIssues =
      s.models.flatMap fun m => if m.fields.isEmpty then [.emptyModel m.name] else [] := by
    rw [emptyModelIssues]
    induction s.models with
    | nil => rfl
    | cons m ms ih =>
      rw [List.flatMap_cons, ← ih]
      cases hempty : m.fields.isEmpty <;> simp [hempty]
  rw [UncheckedSchema.emptyModelFindings, hissues]
  refine gathered fun m _ => ?_
  rw [member_fields, ok_bind, isTruthy_ofItems, List.isEmpty_map]
  cases m.fields.isEmpty with
  | false => rfl
  | true =>
    rw [finding_unchecked m .emptyModel rfl]
    rfl

theorem relationFindings_field (m : Model) (f : Field) :
    m.unchecked.relationFindings (s.modelNames.map fun n => .str (.text n)) f.unchecked =
      .ok ((s.relationIssuesOf m f).map (·.finding)) := by
  have hrelation := member_relation f
  rw [Unchecked.relationFindings, relationIssuesOf]
  cases hfield : f.relation with
  | none =>
    rw [hfield] at hrelation
    rw [hrelation]
    rfl
  | some r =>
    have hthere : ¬(ofObject .relation [] r.toJson).isNull := Bool.false_ne_true
    have hname : (plain (.str (.text f.name))).toJson = .str (.text f.name) := rfl
    have hrelation : f.unchecked.member "relation" = .ok (ofObject .relation [] r.toJson) :=
      hrelation.trans (by rw [hfield]; rfl)
    have hempty := fieldFinding_unchecked m f.name .emptyRelation rfl
    have hunknown := fieldFinding_unchecked m f.name
      (fun m f' => .unknownRelationTarget m f' (relationTarget f.type)) rfl
    have hshown : LooseText.shown (.text f.type) = f.type := rfl
    rw [hrelation, ok_bind]
    refine (if_neg hthere).trans ?_
    rw [member_modelName, ok_bind, member_fieldName, ok_bind, isMeaningful_unchecked, ok_bind, hname]
    simp only [member_fieldType, ok_bind, pure_bind, hshown, any_same, decide_eq_true_eq, hempty, hunknown]
    by_cases htarget : relationTarget f.type ∈ s.modelNames <;> cases r.isMeaningful <;>
      simp [htarget] <;> rfl

theorem relationFindings_unchecked :
    s.unchecked.relationFindings = .ok (s.relationIssues.map (·.finding)) := by
  have hnames : (s.unchecked.models.mapM (·.member "name")) =
      .ok (s.modelNames.map fun n => .plain (.str (.text n))) := by
    rw [unchecked, List.mapM_map, modelNames, List.map_map]
    exact mapM_eq_ok_map fun m _ => member_modelName m
  have hasNames : (s.modelNames.map fun n => plain (.str (.text n))).mapM (·.asName) =
      .ok (s.modelNames.map fun n => .str (.text n)) := by
    rw [List.mapM_map]
    exact mapM_eq_ok_map fun n _ => rfl
  rw [UncheckedSchema.relationFindings, hnames, ok_bind, hasNames, ok_bind]
  refine gathered fun m _ => ?_
  rw [member_fields, ok_bind, items_ofItems, ok_bind]
  exact gathered fun f _ => relationFindings_field s m f

theorem idDirectiveFindings_unchecked :
    s.unchecked.idDirectiveFindings = .ok (s.idDirectiveIssues.map (·.finding)) := by
  rw [UncheckedSchema.idDirectiveFindings]
  refine gathered fun m _ => ?_
  have hfields : ((m.fields.map (·.unchecked)).mapM fun f => do (← f.member "name").asName) =
      .ok ((m.fields.map (·.name)).map fun n => .str (.text n)) := by
    rw [List.mapM_map, List.map_map]
    refine mapM_eq_ok_map fun f _ => ?_
    rw [Function.comp_apply, member_fieldName]
    rfl
  rw [member_fields, ok_bind, items_ofItems, ok_bind, hfields, ok_bind, member_directives, ok_bind,
    items_ofTexts, ok_bind]
  refine gathered fun line _ => ?_
  have hunknown : unknownIds ((m.fields.map (·.name)).map fun n => .str (.text n))
      (.plain (.str (.text line))) =
        .ok ((idNames line).filter fun n => n ∉ m.fields.map (·.name)) := by
    have hshown : LooseText.shown (.text line) = line := rfl
    simp only [unknownIds, any_same, hshown, decide_not]
  rw [hunknown, ok_bind, List.map_map]
  exact mapM_eq_ok_map fun name _ => fieldFinding_unchecked m name .unknownIdField rfl

/-- A check of unchecked records and one of checked records find the same in a schema. -/
def FindsAlike (s : Schema) (u : String × (UncheckedSchema → Except Fault (List Finding)))
    (c : String × (Schema → List Issue)) : Prop :=
  u.1 = c.1 ∧ u.2 s.unchecked = .ok ((c.2 s).map (·.finding))

theorem checks_findAlike : List.Forall₂ (FindsAlike s) UncheckedSchema.checks checks :=
  .cons ⟨rfl, modelNameFindings_unchecked s⟩ <| .cons ⟨rfl, fieldNameFindings_unchecked s⟩ <|
    .cons ⟨rfl, emptyModelFindings_unchecked s⟩ <| .cons ⟨rfl, relationFindings_unchecked s⟩ <|
      .cons ⟨rfl, idDirectiveFindings_unchecked s⟩ .nil

/-- All checks find the same in a checked schema, whether its records are checked or not. -/
theorem findings_unchecked : s.unchecked.findings = .ok (s.issues.map (·.finding)) := by
  have hfound : (UncheckedSchema.checks.mapM fun c => c.2 s.unchecked) =
      .ok (checks.map fun c => (c.2 s).map (·.finding)) :=
    mapM_eq_ok_iff.2 (List.forall₂_map_right_iff.2 ((checks_findAlike s).imp fun _ _ h => h.2))
  rw [UncheckedSchema.findings, hfound, ok_bind, issues, List.map_flatMap, List.flatMap_def]
  rfl

/-- The check of a name finds the same. -/
theorem find?_checks_unchecked (name : String) :
    (UncheckedSchema.checks.find? (·.1 = name)).map (·.2 s.unchecked) =
      (checks.find? (·.1 = name)).map fun c => .ok ((c.2 s).map (·.finding)) := by
  have halike := checks_findAlike s
  generalize UncheckedSchema.checks = us, checks = cs at halike
  induction halike with
  | nil => rfl
  | @cons u c _ _ hfirst _ ih =>
    rw [List.find?_cons, List.find?_cons, hfirst.1]
    cases decide (c.1 = name) with
    | false => exact ih
    | true => exact congrArg some hfirst.2

end Schema

end CatalogSync

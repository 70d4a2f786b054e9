/-
Named entries at any depth, and where they stand.

A map holds named entries, the configuration of an entry may hold a map of
arguments, and so on.  All of them are found by reading a script, and each
says where its key stands: one token of the text, written in one of the
ways in which a key of that name can be written.

* `FieldMap.allFields`, `Definitions.allFields`: the named entries at any
  depth;
* `Names`: ways of writing a key;
* `KeyStandsIn`: a span covers a key of a name;
* `keyStandsIn_of_keyName?`: a key that is read off a text stands there.
-/
import GraphMigrate.Definitions.Model
import GraphMigrate.Proofs.Script.Reading
import GraphMigrate.Proofs.Text.Cut
import GraphMigrate.Script.Source

namespace GraphMigrate

open Script (Key KeyForm Node Recording Agrees Source Token TokenKind)

/-! ### Entries at any depth -/

mutual

/-- The named entries of a map, each before those in its value. -/
def FieldMap.allFields : FieldMap → List NamedEntry
  | .mk _ _ entries => MapEntry.allFieldsOf entries

/-- The named entries of a list of entries. -/
def MapEntry.allFieldsOf : List MapEntry → List NamedEntry
  | [] => []
  | e :: es => e.allFields ++ MapEntry.allFieldsOf es

/-- The named entry that an entry is, and those in its value. -/
def MapEntry.allFields : MapEntry → List NamedEntry
  | .field key keySpan shorthand span value =>
    ⟨key, keySpan, shorthand, span, value⟩ :: value.allFields
  | .spread _ _ | .computed _ => []

/-- The named entries in a value. -/
def FieldValue.allFields : FieldValue → List NamedEntry
  | .config c => c.allFields
  | .reference _ _ | .call _ _ | .other _ => []

/-- The named entries among the arguments of a field. -/
def FieldConfig.allFields : FieldConfig → List NamedEntry
  | .mk _ _ _ arguments _ _ => FieldsSource.allFieldsOf arguments

/-- The named entries of a source, if there is one. -/
def FieldsSource.allFieldsOf : Option FieldsSource → List NamedEntry
  | none => []
  | some s => s.allFields

/-- The named entries of the map that a source holds. -/
def FieldsSource.allFields : FieldsSource → List NamedEntry
  | .inline m | .deferred m => m.allFields
  | .reference _ _ | .call _ _ | .unsupported _ => []

end

/-- All named entries that were found. -/
def Definitions.allFields (d : Definitions) : List NamedEntry :=
  d.outputMaps.flatMap FieldMap.allFields ++ d.inputMaps.flatMap FieldMap.allFields ++
    d.argumentMaps.flatMap FieldMap.allFields ++
    d.fieldConfigs.flatMap (·.config.allFields) ++ d.enumValues.flatMap FieldsSource.allFields

/-- The entries of a map itself are among those at any depth. -/
lemma FieldMap.fields_subset_allFields (map : FieldMap) : map.fields ⊆ map.allFields := by
  obtain ⟨kind, span, entries⟩ := map
  rw [FieldMap.allFields, FieldMap.fields, FieldMap.entries]
  induction entries with
  | nil => exact List.Subset.refl _
  | cons e es ih =>
      intro field hfield
      rw [MapEntry.allFieldsOf, List.mem_append]
      rw [List.filterMap_cons] at hfield
      cases e with
      | field key keySpan shorthand span value =>
          rcases List.mem_cons.mp hfield with rfl | hfield
          · exact .inl (by rw [MapEntry.allFields]; exact List.mem_cons_self)
          · exact .inr (ih hfield)
      | spread label span => exact .inr (ih hfield)
      | computed span => exact .inr (ih hfield)

/-! ### Keys -/

/-- The characters that a span covers are a token of the kind, read where
they stand. -/
def StandsAt (text : List Char) (span : Span) (kind : TokenKind) (written : List Char) : Prop :=
  ∃ before rest, text = before ++ written ++ rest ∧
    span = ⟨byteLength before, byteLength before + byteLength written⟩ ∧
    Token.read ⟨span.start, written ++ rest⟩ = (kind, ⟨span.stop, rest⟩)

/-- A token of the kind that is written so is a key of the name.  The
escapes of a name stand for characters, those of a string for themselves. -/
inductive Names (name : String) (written : List Char) : TokenKind → Prop
  | plain (h : written = name.toList) : Names name written (.word name false)
  | escaped : Names name written (.word name true)
  | quoted {quote : Char} (hfirst : written.head? = some quote)
      (hquote : quote = '"' ∨ quote = '\'')
      (h : name = Source.trimQuotes (String.ofList written)) : Names name written .quoted
  | numeral (h : name = String.ofList written) : Names name written .numeral

/-- A span covers a key of the name. -/
def KeyStandsIn (text : List Char) (name : String) (span : Span) : Prop :=
  ∃ kind written, StandsAt text span kind written ∧ Names name written kind

section Keys

variable {text : List Char}

lemma StandsAt.slice? {span : Span} {kind : TokenKind} {written : List Char}
    (h : StandsAt text span kind written) : span.slice? text = some written := by
  obtain ⟨before, rest, htext, hspan, -⟩ := h
  refine slice?_eq_some_iff.mpr ⟨before, rest, htext, ?_, ?_⟩
  · rw [hspan]
  · rw [hspan]

lemma standsAt_of_in {t : Token} (h : t.In text) :
    ∃ written, StandsAt text t.span t.kind written ∧
      t.start.chars = written ++ t.after.chars := by
  obtain ⟨before, written, htext, hchars, hspan⟩ := h.exists_append
  refine ⟨written, ⟨before, t.after.chars, htext, hspan, ?_⟩, hchars⟩
  have hread := h.read_start
  rcases hstart : t.start with ⟨offset, chars⟩
  rcases hafter : t.after with ⟨stop, rest⟩
  rw [h.span_eq, hstart, hafter]
  rw [hstart, hafter] at hchars hread
  dsimp only at hchars ⊢
  rw [← hchars, hread]

/-- A word that stands in the text is a key of what it reads. -/
lemma keyStandsIn_of_name {spelled : String} {span : Span}
    (h : Key.StandsIn text ⟨.name spelled, span⟩) : KeyStandsIn text spelled span := by
  obtain hform | ⟨t, ht, rfl, hfits⟩ := h
  · cases hform
  · obtain ⟨written, hstands, hchars⟩ := standsAt_of_in ht
    have hreading := ht.reading
    generalize t.kind = kind at hfits hstands hreading
    cases kind with
    | word read escaped =>
        dsimp only [KeyForm.Fits] at hfits
        subst hfits
        refine ⟨_, written, hstands, ?_⟩
        cases escaped with
        | true => exact .escaped
        | false =>
            have hwritten := hreading.of_word
            rw [hchars, List.append_cancel_right_eq] at hwritten
            exact .plain hwritten
    | _ => cases hfits

/-- A key that is named after the text stands in it. -/
lemma keyStandsIn_of_keyName? {source : Source} {key : Key} {name : String}
    (htext : source.text = text) (hkey : key.StandsIn text)
    (hname : source.keyName? key = some name) : KeyStandsIn text name key.span := by
  obtain ⟨form, span⟩ := key
  cases form with
  | name spelled =>
      cases hname
      exact keyStandsIn_of_name hkey
  | quoted =>
      obtain hform | ⟨t, ht, rfl, hfits⟩ := hkey
      · cases hform
      obtain ⟨written, hstands, hchars⟩ := standsAt_of_in ht
      have hreading := ht.reading
      generalize t.kind = kind at hfits hstands hreading
      cases kind with
      | quoted =>
          obtain ⟨quote, inside, hquoted, hquote⟩ := hreading.of_quoted
          rw [hchars, ← List.cons_append, List.append_cancel_right_eq] at hquoted
          refine ⟨_, written, hstands, .quoted (by rw [hquoted]; rfl) hquote ?_⟩
          simp only [Source.keyName?, Source.quote, Span.sliceText, htext, hstands.slice?] at hname
          exact (Option.some.inj hname).symm
      | _ => cases hfits
  | numeral =>
      obtain hform | ⟨t, ht, rfl, hfits⟩ := hkey
      · cases hform
      obtain ⟨written, hstands, -⟩ := standsAt_of_in ht
      generalize t.kind = kind at hfits hstands
      cases kind with
      | numeral =>
          refine ⟨_, written, hstands, .numeral ?_⟩
          simp only [Source.keyName?, Source.quote, Span.sliceText, htext, hstands.slice?] at hname
          exact (Option.some.inj hname).symm
      | _ => cases hfits
  | computed => cases hname

end Keys

end GraphMigrate

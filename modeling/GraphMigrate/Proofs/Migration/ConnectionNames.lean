/-
Names of connections.

The connections of a list are called after it, with one of two endings.  No
name has both, so each belongs to one list at most; and the connection beside a
list is looked for under these two names only.

* `stripConnectionSuffix?_eq_some_iff`: the names of the connections of a
  list;
* `eq_of_connection_name`: a name is that of the connections of one list at
  most;
* `connection?_eq_some_iff`: the connection that is found beside a list;
* `connection_is_called_after_list`: **the connections found beside a list are
  those that lose their ending to its name**.
-/
import GraphMigrate.Migration.Pagination
import GraphMigrate.Proofs.CamelCase
import GraphMigrate.Proofs.Control.Ensures

namespace GraphMigrate

open Naming (stripConnectionSuffix? dropEnding?)

/-! ### The endings -/

namespace Naming

/-- No name has both endings. -/
lemma not_both_endings {a b : List Char} :
    a ++ "_connection".toList ≠ b ++ "Connection".toList := by
  intro h
  have hshort : "Connection".toList <:+ a ++ "_connection".toList := ⟨b, h.symm⟩
  exact absurd (List.suffix_of_suffix_length_le hshort (List.suffix_append _ _) (by decide))
    (by decide)

lemma dropEndings_eq_some_iff {cs kept : List Char} :
    (dropEnding? "_connection".toList cs).or (dropEnding? "Connection".toList cs) = some kept ↔
      cs = kept ++ "_connection".toList ∨ cs = kept ++ "Connection".toList := by
  cases hfirst : dropEnding? "_connection".toList cs with
  | none =>
      have hnot : cs ≠ kept ++ "_connection".toList := fun heq => by
        rw [dropEnding?_eq_some_iff.mpr heq] at hfirst
        cases hfirst
      rw [Option.none_or, dropEnding?_eq_some_iff, or_iff_right hnot]
  | some front =>
      rw [dropEnding?_eq_some_iff] at hfirst
      subst hfirst
      rw [Option.some_or, Option.some.injEq, List.append_left_inj, or_iff_left not_both_endings]

/-- What is left of a text without either ending. -/
lemma dropEndings_toList_eq_some_iff {name bare : String} :
    (dropEnding? "_connection".toList name.toList).or
        (dropEnding? "Connection".toList name.toList) = some bare.toList ↔
      name = bare ++ "_connection" ∨ name = bare ++ "Connection" := by
  have hname : ∀ ending : String,
      name = bare ++ ending ↔ name.toList = bare.toList ++ ending.toList := fun ending => by
    rw [← String.toList_append, String.toList_inj]
  rw [hname, hname, dropEndings_eq_some_iff]

/-- The connections of a list are called after it, with either ending. -/
lemma stripConnectionSuffix?_eq_some_iff {name bare : String} :
    stripConnectionSuffix? name = some bare ↔
      bare ≠ "" ∧ (name = bare ++ "_connection" ∨ name = bare ++ "Connection") := by
  have hempty : bare ≠ "" ↔ bare.toList ≠ [] := by
    rw [ne_eq, ne_eq, ← String.toList_inj]
    rfl
  rw [← dropEndings_toList_eq_some_iff, stripConnectionSuffix?, hempty]
  generalize (dropEnding? "_connection".toList name.toList).or
    (dropEnding? "Connection".toList name.toList) = kept
  rcases kept with _ | _ | ⟨c, cs⟩
  · simp
  · simp
  · rw [Option.some.injEq, Option.some.injEq, ← String.toList_inj, String.toList_ofList]
    refine ⟨fun h => ⟨?_, h⟩, fun h => h.2⟩
    rw [← h]
    exact List.cons_ne_nil c cs

/-- A name is that of the connections of one list at most. -/
lemma eq_of_connection_name {name bare other : String}
    (hbare : name = bare ++ "_connection" ∨ name = bare ++ "Connection")
    (hother : name = other ++ "_connection" ∨ name = other ++ "Connection") : other = bare := by
  rw [← dropEndings_toList_eq_some_iff] at hbare hother
  rw [hbare, Option.some.injEq, String.toList_inj] at hother
  exact hother.symm

end Naming

/-! ### The connection beside a list -/

section Connections

variable {map : FieldMap} {f : NamedEntry} {key name : String}

/-- A field that is found under a key has this key. -/
lemma FieldMap.key_of_get? (h : map.get? name = some f) : f.key = name := by
  simpa using List.find?_some h

lemma FieldMap.map_key_get? (map : FieldMap) (name : String) :
    (map.get? name).map (·.key) = if map.contains name then some name else none := by
  rw [contains]
  cases hfound : map.get? name with
  | none => rfl
  | some f =>
      rw [Option.map_some, key_of_get? hfound]
      rfl

/-- The connection beside a list is the field under one of its two names, under
the one in camel case where there are both. -/
lemma connection?_eq_some_iff :
    connection? map key = some name ↔
      map.contains name = true ∧ (name = key ++ "_connection" ∨ name = key ++ "Connection") ∧
        (map.contains (key ++ "Connection") = true → name = key ++ "Connection") := by
  rw [connection?, List.findSome?_cons, List.findSome?_singleton, FieldMap.map_key_get?,
    FieldMap.map_key_get?]
  by_cases hcamel : map.contains (key ++ "Connection") = true
  · rw [if_pos hcamel]
    dsimp only
    rw [Option.some.injEq]
    constructor
    · rintro rfl
      exact ⟨hcamel, .inr rfl, fun _ => rfl⟩
    · exact fun h => (h.2.2 hcamel).symm
  · rw [if_neg hcamel]
    dsimp only
    rw [Option.ite_none_right_eq_some, Option.some.injEq]
    constructor
    · rintro ⟨hsnake, rfl⟩
      exact ⟨hsnake, .inl rfl, fun h => absurd h hcamel⟩
    · rintro ⟨hname, rfl | rfl, -⟩
      · exact ⟨hname, rfl⟩
      · exact absurd hname hcamel

end Connections

/-- **The connections found beside a list are those that lose their ending to
its name.**  Let a list have a name.  A connection is found beside it exactly if
it is a key of the map and called like the list without its ending; where the map
has it in both spellings, it is the one in camel case.  A name loses an ending
exactly if it is another name that is not empty with one of the two endings behind
it, and there is only one such name. -/
theorem connection_is_called_after_list (map : FieldMap) (key name : String) :
    (key ≠ "" →
      (connection? map key = some name ↔
        stripConnectionSuffix? name = some key ∧ map.contains name = true ∧
          (map.contains (key ++ "Connection") = true → name = key ++ "Connection"))) ∧
    (stripConnectionSuffix? name = some key ↔
      key ≠ "" ∧ (name = key ++ "Connection" ∨ name = key ++ "_connection")) ∧
    (stripConnectionSuffix? name = some key →
      ∀ other, name = other ++ "Connection" ∨ name = other ++ "_connection" → other = key) := by
  refine ⟨fun hkey => ?_, ?_, fun hbare other hother => ?_⟩
  · rw [connection?_eq_some_iff, Naming.stripConnectionSuffix?_eq_some_iff, and_iff_right hkey]
    exact and_left_comm
  · rw [Naming.stripConnectionSuffix?_eq_some_iff, or_comm]
  · have hname := (Naming.stripConnectionSuffix?_eq_some_iff.mp hbare).2
    exact Naming.eq_of_connection_name hname hother.symm

/-- A list with connections of both endings, one of which has a connection of
its own. -/
def chainedConnections : SourceFile where
  text := "new GraphQLObjectType(\x7b fields: \x7b\n" ++
    " shows: \x7b type: new GraphQLList(S), args: \x7b size: x \x7d \x7d, ...more,\n" ++
    " shows_connection: past, showsConnection, shows_connection_connection: all \x7d \x7d)"
  language := .typeScript

theorem connections_in_chainedConnections : ∃ d, chainedConnections.definitions {} = .ok d ∧
    ∃ map ∈ d.outputMaps,
      ("shows" ≠ "" ∧ connection? map "shows" = some "showsConnection" ∧
        stripConnectionSuffix? "showsConnection" = some "shows") ∧
      ("shows_connection" ≠ "" ∧
        connection? map "shows_connection" = some "shows_connection_connection" ∧
        stripConnectionSuffix? "shows_connection_connection" = some "shows_connection" ∧
        ∀ other, "shows_connection_connection" = other ++ "Connection" ∨
          "shows_connection_connection" = other ++ "_connection" → other = "shows_connection") := by
  have hcheck : (chainedConnections.definitions {}).toOption.any (fun d => decide (
      ∃ map ∈ d.outputMaps, connection? map "shows" = some "showsConnection" ∧
        connection? map "shows_connection" = some "shows_connection_connection")) = true := by
    decide +kernel
  obtain ⟨d, hd, hholds⟩ := Option.any_eq_true _ _ |>.mp hcheck
  obtain ⟨map, hmap, hfirst, hsecond⟩ := of_decide_eq_true hholds
  have hshows : "shows" ≠ "" := by decide
  have hpast : "shows_connection" ≠ "" := by decide
  have hbare := (((connection_is_called_after_list map _ _).1 hshows).mp hfirst).1
  have hchained := (((connection_is_called_after_list map _ _).1 hpast).mp hsecond).1
  exact ⟨d, eq_ok_of_toOption hd, map, hmap, ⟨hshows, hfirst, hbare⟩, hpast, hsecond, hchained,
    (connection_is_called_after_list map _ _).2.2 hchained⟩

end GraphMigrate

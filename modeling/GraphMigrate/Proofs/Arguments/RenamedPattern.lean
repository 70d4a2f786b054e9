/-
Resolvers that take their arguments apart in an object pattern.

Only the keys of the pattern change, so the body finds the same variables.
Called with renamed arguments, a member takes under its new key what it took
under the old one.  The rest of the arguments is not kept: it holds renamed
arguments that the pattern does not name under their new keys.

* `applyEdits_members`: the text of the pattern after the edits;
* `bindAll?_renamed`: members bind what they bound before;
* `without_renamed_eq_iff`: when the rest is the same;
* `renamed_pattern_binds_alike_iff`: **a rewritten pattern binds what the
  original bound exactly if** it takes no rest, or names all arguments that
  are there and renamed;
* `unnamed_argument_is_renamed_in_rest`: a rest that has another key.
-/
import GraphMigrate.Proofs.Arguments.ObjectPattern
import GraphMigrate.Proofs.Text.Independence

namespace GraphMigrate

variable {V : Type}

/-! ### Keys after renames -/

/-- A key that is renamed in the map gets its new name in a pattern. -/
lemma patternName?_of_mem {map : FieldMap} {r : Rename} (hr : r ∈ (plan map).renames) :
    patternName? map (plan map).renames r.field.key = some r.newName := by
  obtain ⟨hneeds, hnew, -⟩ := mem_planFrom hr
  rw [patternName?, if_pos hneeds]
  cases hfind : (plan map).renames.find? (·.field.key == r.field.key) with
  | none => simpa using List.find?_eq_none.mp hfind r hr
  | some found =>
      have hkey : found.field.key = r.field.key := by simpa using List.find?_some hfind
      obtain ⟨-, hfound, -⟩ := mem_planFrom (List.mem_of_find?_eq_some hfind)
      simp only [hfound, hnew, hkey]

/-- Any other key of the map stays. -/
lemma patternName?_of_notMem {map : FieldMap} {key : String} (hkey : key ∈ map.keys)
    (hold : key ∉ oldNames (plan map).renames) :
    patternName? map (plan map).renames key = none := by
  have hnone : (plan map).renames.find? (·.field.key == key) = none :=
    List.find?_eq_none.mpr fun r hr heq =>
      hold (List.mem_map.mpr ⟨r, hr, beq_iff_eq.mp heq⟩)
  have hcontains : map.contains key = true := by
    obtain ⟨field, hfield, rfl⟩ := List.mem_map.mp hkey
    exact List.find?_isSome.mpr ⟨field, hfield, beq_self_eq_true field.key⟩
  rw [patternName?, hnone]
  simp [hcontains]

/-- The key that a rewritten pattern has in the place of one. -/
def renamedKey (map : FieldMap) (key : String) : String :=
  (patternName? map (plan map).renames key).getD key

/-- A key of the map is renamed in a pattern, or stays as in the map. -/
lemma patternName?_cases {map : FieldMap} {key : String} (hkey : key ∈ map.keys) :
    (∃ r ∈ (plan map).renames, r.field.key = key ∧
      patternName? map (plan map).renames key = some r.newName) ∨
    (key ∉ oldNames (plan map).renames ∧ key ∉ newNames (plan map).renames ∧
      patternName? map (plan map).renames key = none) := by
  by_cases hold : key ∈ oldNames (plan map).renames
  · obtain ⟨r, hr, rfl⟩ := List.mem_map.mp hold
    exact Or.inl ⟨r, hr, rfl, patternName?_of_mem hr⟩
  · exact Or.inr ⟨hold, fun hnew => notMem_keys_of_mem_newNames hnew hkey,
      patternName?_of_notMem hkey hold⟩

/-! ### The text of the pattern -/

namespace PatternMember

variable {map : FieldMap} {renames : List Rename}

/-- What stands behind the key of a member. -/
def behind : PatternMember → String
  | shorthand _ _ fallback => Fallback.writtenAny fallback
  | keyed _ _ colon target fallback => colon ++ target.written ++ Fallback.writtenAny fallback

lemma written_eq (member : PatternMember) :
    member.written = member.lead ++ (member.keyText ++ member.behind) := by
  cases member <;> rfl

/-- The edits of members of which the first begins at an offset. -/
def edits (map : FieldMap) (renames : List Rename) (offset : ℕ) (members : List PatternMember) :
    List Edit :=
  (propertiesFrom offset members).filterMap fun property =>
    (patternName? map renames property.key).map (patternEdit property)

lemma edits_cons_of_none {member : PatternMember} {offset : ℕ}
    (h : patternName? map renames member.key = none) (members : List PatternMember) :
    edits map renames offset (member :: members) =
      edits map renames (offset + byteLength member.written.toList) members :=
  List.filterMap_cons_none (Option.map_eq_none_iff.mpr h)

lemma edits_cons_of_some {member : PatternMember} {offset : ℕ} {newName : String}
    (h : patternName? map renames member.key = some newName) (members : List PatternMember) :
    edits map renames offset (member :: members) =
      patternEdit (member.property offset) newName ::
        edits map renames (offset + byteLength member.written.toList) members :=
  List.filterMap_cons_some (Option.map_eq_some_iff.mpr ⟨newName, h, rfl⟩)

/-- The edit of a member replaces a piece of it, or nothing, right behind what
stands before the key. -/
lemma exists_pieces (member : PatternMember) (offset : ℕ) (newName : String) :
    ∃ gone kept : List Char,
      member.written.toList = member.lead.toList ++ gone ++ kept ∧
      (patternEdit (member.property offset) newName).span.start =
        offset + byteLength member.lead.toList ∧
      (patternEdit (member.property offset) newName).span.stop =
        offset + byteLength member.lead.toList + byteLength gone ∧
      (member.withKey newName).written.toList = member.lead.toList ++
        (patternEdit (member.property offset) newName).text.toList ++ kept := by
  cases member with
  | shorthand lead name fallback =>
      refine ⟨[], (name ++ Fallback.writtenAny fallback).toList, ?_, rfl, rfl, ?_⟩
      · simp [written, PatternMember.lead]
      · simp [withKey, written, PatternTarget.written, patternEdit, property, Edit.insert,
          PatternMember.lead]
  | keyed lead key colon target fallback =>
      refine ⟨key.text.toList, (colon ++ target.written ++ Fallback.writtenAny fallback).toList,
        ?_, rfl, rfl, ?_⟩
      · simp [written, PatternMember.lead]
      · simp [withKey, written, patternEdit, property, Edit.replace, PatternMember.lead]

/-- The edits of members are laid out over their text, and splicing them in
gives the text of the renamed members. -/
lemma splice_edits (map : FieldMap) (renames : List Rename) (members : List PatternMember)
    (offset : ℕ) (after : List Char) :
    Laid offset ((writtenAll members).toList ++ after) (edits map renames offset members) ∧
    splice offset ((writtenAll members).toList ++ after) (edits map renames offset members) =
      (writtenAll (members.map (PatternMember.renamed map renames))).toList ++ after := by
  induction members generalizing offset with
  | nil => exact ⟨.nil _ _, rfl⟩
  | cons member members ih =>
      obtain ⟨hlaid, hsplice⟩ := ih (offset + byteLength member.written.toList)
      rw [List.map_cons, writtenAll, writtenAll, String.toList_append, String.toList_append,
        List.append_assoc, List.append_assoc]
      cases hname : patternName? map renames member.key with
      | none =>
          rw [edits_cons_of_none hname, PatternMember.renamed, hname,
            splice_append fun e he => (hlaid.le_start_le_stop e he).1, hsplice]
          exact ⟨hlaid.append_kept, rfl⟩
      | some newName =>
          obtain ⟨gone, kept, hwritten, hstart, hstop, hrenamed⟩ :=
            exists_pieces member offset newName
          have hend : offset + byteLength member.written.toList =
              (patternEdit (member.property offset) newName).span.stop + byteLength kept := by
            rw [hwritten, byteLength_append, byteLength_append, hstop]
            omega
          rw [hend] at hlaid hsplice
          rw [edits_cons_of_some hname, PatternMember.renamed, hname, hend, hwritten, hrenamed,
            List.append_assoc]
          refine ⟨.cons hstart (hstart ▸ hstop) hlaid.append_kept, ?_⟩
          rw [splice_cons hstart (hstart ▸ hstop),
            splice_append fun e he => (hlaid.le_start_le_stop e he).1, hsplice]
          simp only [List.append_assoc]

/-- Members whose keys are written as something have edits that start one
behind the other. -/
lemma pairwise_start_edits {members : List PatternMember}
    (htext : ∀ member ∈ members, member.keyText ≠ "") (offset : ℕ) :
    (edits map renames offset members).Pairwise fun a b => a.span.start < b.span.start := by
  induction members generalizing offset with
  | nil => exact List.Pairwise.nil
  | cons member members ih =>
      obtain ⟨hfirst, hlater⟩ := List.forall_mem_cons.mp htext
      cases hname : patternName? map renames member.key with
      | none =>
          rw [edits_cons_of_none hname]
          exact ih hlater _
      | some newName =>
          rw [edits_cons_of_some hname]
          refine List.pairwise_cons.mpr ⟨fun e he => ?_, ih hlater _⟩
          have hle := ((splice_edits map renames members _ []).1.le_start_le_stop e he).1
          obtain ⟨-, -, -, hstart, -, -⟩ := exists_pieces member offset newName
          have hkey : byteLength member.keyText.toList ≠ 0 := fun hzero =>
            hfirst (by simpa using byteLength_eq_zero.mp hzero)
          simp only [written_eq, String.toList_append, byteLength_append] at hle
          omega

end PatternMember

/-- Keys that a run reads as they are meant. -/
def ObjectPattern.IsReadable (runtime : PatternRuntime V) (p : ObjectPattern) : Prop :=
  ∀ member ∈ p.members, runtime.key? member.keyText = some member.key

instance (runtime : PatternRuntime V) (p : ObjectPattern) : Decidable (p.IsReadable runtime) :=
  inferInstanceAs (Decidable (∀ member ∈ p.members, _))

/-- The edits of a pattern give the renamed pattern, and none is skipped. -/
lemma applyEdits_members {p : ObjectPattern} {map : FieldMap} {renames : List Rename}
    (htext : ∀ member ∈ p.members, member.keyText ≠ "") (before after : String) :
    applyEdits (before ++ p.written ++ after)
        (PatternMember.edits map renames (byteLength before.toList + 1) p.members) =
      ⟨before ++ (p.renamed map renames).written ++ after, []⟩ := by
  obtain ⟨members, rest, close⟩ := p
  let behind := (RestElement.writtenAny rest ++ close ++ after).toList
  have hcursor : byteLength (before ++ "\x7b").toList = byteLength before.toList + 1 := by
    rw [String.toList_append, byteLength_append]
    rfl
  have hwritten : (before ++ (ObjectPattern.braces members rest close).written ++ after).toList =
      (before ++ "\x7b").toList ++ ((PatternMember.writtenAll members).toList ++ behind) := by
    simp [ObjectPattern.written, behind]
  obtain ⟨hlaid, hsplice⟩ := PatternMember.splice_edits map renames members
    (byteLength (before ++ "\x7b").toList) behind
  rw [ObjectPattern.members, ← hcursor,
    applyEdits_of_laid hwritten hlaid (PatternMember.pairwise_start_edits htext _), hsplice]
  congr 1
  rw [← String.toList_inj]
  simp [ObjectPattern.renamed, ObjectPattern.written, behind]

/-! ### What the pattern binds -/

section Binding

variable {map : FieldMap} {runtime : PatternRuntime V} {o : RuntimeObject V}

namespace PatternMember

/-- A member under another key binds what it bound, if it finds the same under
it. -/
lemma bind?_withKey {member : PatternMember} {newName : String} {o' : RuntimeObject V}
    (hread : runtime.key? member.keyText = some member.key)
    (hnew : runtime.key? newName = some newName) (hsame : o'.get newName = o.get member.key)
    (s : Scope V) : (member.withKey newName).bind? runtime o' s = member.bind? runtime o s := by
  cases member with
  | shorthand lead name fallback =>
      change o'.get newName = o.get name at hsame
      simp only [withKey, PatternMember.bind?, hnew, if_true, hsame, PatternTarget.bind?]
  | keyed lead key colon target fallback =>
      change o'.get newName = o.get key.name at hsame
      change runtime.key? key.text = some key.name at hread
      simp only [withKey, PatternMember.bind?, hnew, hread, if_true, hsame]

/-- What a member binds depends on what stands under its key. -/
lemma bind?_congr {member : PatternMember} {o' : RuntimeObject V}
    (hsame : o'.get member.key = o.get member.key) (s : Scope V) :
    member.bind? runtime o' s = member.bind? runtime o s := by
  cases member with
  | shorthand lead name fallback =>
      change o'.get name = o.get name at hsame
      simp only [PatternMember.bind?, hsame]
  | keyed lead key colon target fallback =>
      change o'.get key.name = o.get key.name at hsame
      simp only [PatternMember.bind?, hsame]

/-- A renamed member binds from renamed arguments what it bound before. -/
lemma bind?_renamed {member : PatternMember} (hkey : member.key ∈ map.keys)
    (hread : runtime.key? member.keyText = some member.key)
    (hword : ∀ r ∈ (plan map).renames, r.field.key = member.key → isWord r.newName = true)
    (s : Scope V) :
    (member.renamed map (plan map).renames).bind? runtime (o.renamed (plan map).renames) s =
      member.bind? runtime o s := by
  rw [PatternMember.renamed]
  rcases patternName?_cases hkey with ⟨r, hr, hfield, hname⟩ | ⟨hold, hnew, hname⟩
  · rw [hname]
    refine bind?_withKey hread (runtime.key?_of_isWord _ (hword r hr hfield)) ?_ s
    rw [RuntimeObject.get, RuntimeObject.get,
      RuntimeObject.lookup?_renamed_newName (nodup_newNames map) hr, hfield]
  · rw [hname]
    refine bind?_congr ?_ s
    rw [RuntimeObject.get, RuntimeObject.get, RuntimeObject.lookup?_renamed_of_notMem hnew,
      if_neg hold]

/-- Renamed members bind from renamed arguments what they bound before. -/
lemma bindAll?_renamed {members : List PatternMember}
    (hkeys : ∀ member ∈ members, member.key ∈ map.keys)
    (hread : ∀ member ∈ members, runtime.key? member.keyText = some member.key)
    (hwords : ∀ member ∈ members, ∀ r ∈ (plan map).renames, r.field.key = member.key →
      isWord r.newName = true) (s : Scope V) :
    bindAll? runtime (members.map (PatternMember.renamed map (plan map).renames))
        (o.renamed (plan map).renames) s =
      bindAll? runtime members o s := by
  induction members generalizing s with
  | nil => rfl
  | cons member members ih =>
      obtain ⟨hkey, hkeys⟩ := List.forall_mem_cons.mp hkeys
      obtain ⟨hreads, hread⟩ := List.forall_mem_cons.mp hread
      obtain ⟨hword, hwords⟩ := List.forall_mem_cons.mp hwords
      rw [List.map_cons, bindAll?, bindAll?, bind?_renamed hkey hreads hword]
      exact bind_congr fun s' => ih hkeys hread hwords s'

end PatternMember

/-- The key of a renamed member. -/
lemma PatternMember.key_renamed (member : PatternMember) :
    (member.renamed map (plan map).renames).key = renamedKey map member.key := by
  rw [PatternMember.renamed, renamedKey]
  cases patternName? map (plan map).renames member.key with
  | none => rfl
  | some newName => cases member <;> rfl

/-- A key that no rename replaces or gives stands only for itself. -/
lemma mem_map_renamedKey_iff {keys : List String} {key : String} (hkeys : ∀ k ∈ keys, k ∈ map.keys)
    (hold : key ∉ oldNames (plan map).renames) (hnew : key ∉ newNames (plan map).renames) :
    key ∈ keys.map (renamedKey map) ↔ key ∈ keys := by
  constructor
  · intro hmem
    obtain ⟨k, hk, rfl⟩ := List.mem_map.mp hmem
    rcases patternName?_cases (hkeys k hk) with ⟨r, hr, -, hname⟩ | ⟨-, -, hname⟩
    · rw [renamedKey, hname] at hnew
      exact absurd (List.mem_map.mpr ⟨r, hr, rfl⟩) hnew
    · rwa [renamedKey, hname]
  · intro hmem
    refine List.mem_map.mpr ⟨key, hmem, ?_⟩
    rw [renamedKey, patternName?_of_notMem (hkeys key hmem) hold]
    rfl

/-- **The rest of renamed arguments** is the rest of the arguments exactly if
each argument that is there and renamed is among the keys that are taken. -/
lemma without_renamed_eq_iff {keys : List String} (hkeys : ∀ k ∈ keys, k ∈ map.keys)
    (ho : ∀ k, o.lookup? k ≠ none → k ∈ map.keys) :
    (o.renamed (plan map).renames).without (keys.map (renamedKey map)) = o.without keys ↔
      ∀ r ∈ (plan map).renames, o.lookup? r.field.key ≠ none → r.field.key ∈ keys := by
  constructor
  · intro h r hr hthere
    by_contra hnot
    have hold : r.field.key ∈ oldNames (plan map).renames := List.mem_map.mpr ⟨r, hr, rfl⟩
    have hnew : r.field.key ∉ newNames (plan map).renames := fun hnew =>
      notMem_oldNames_of_mem_newNames hnew hold
    have hlookup := congrArg (fun object => object.lookup? r.field.key) h
    simp only [RuntimeObject.lookup?_without, if_neg hnot,
      RuntimeObject.lookup?_renamed_of_notMem hnew, if_pos hold, ite_self] at hlookup
    exact hthere hlookup.symm
  · intro h
    ext1
    funext key
    simp only [RuntimeObject.lookup?_without]
    by_cases hnew : key ∈ newNames (plan map).renames
    · -- a new name is taken with the key that it replaces, or nothing stands there
      have hout := notMem_keys_of_mem_newNames hnew
      have hnone : o.lookup? key = none := by
        by_contra hthere
        exact hout (ho key hthere)
      rw [if_neg fun hmem => hout (hkeys key hmem), hnone]
      obtain ⟨r, hr, rfl⟩ := List.mem_map.mp hnew
      split
      · rfl
      · rename_i hfree
        rw [RuntimeObject.lookup?_renamed_newName (nodup_newNames map) hr]
        by_contra hthere
        refine hfree (List.mem_map.mpr ⟨r.field.key, h r hr hthere, ?_⟩)
        rw [renamedKey, patternName?_of_mem hr]
        rfl
    · rw [RuntimeObject.lookup?_renamed_of_notMem hnew]
      by_cases hold : key ∈ oldNames (plan map).renames
      · rw [if_pos hold, ite_self]
        obtain ⟨r, hr, rfl⟩ := List.mem_map.mp hold
        split
        · rfl
        · rename_i hfree
          by_contra hthere
          exact hfree (h r hr fun hnone => hthere hnone.symm)
      · rw [if_neg hold]
        simp only [mem_map_renamedKey_iff hkeys hold hnew]

end Binding

/-! ### Both together -/

/-- Variables with one more are the same only if it holds the same, or has no
name of a variable. -/
lemma Scope.with?_eq_iff {s : Scope V} {name : String} {bound bound' : Bound V} :
    s.with? name bound = s.with? name bound' ↔
      s.with? name bound' = none ∨ bound = bound' := by
  rw [with?, with?]
  split
  · simp only [Option.some.injEq, Scope.mk.injEq, reduceCtorEq, false_or]
    refine ⟨fun h => ?_, fun h => by rw [h]⟩
    simpa using congrFun h name
  · simp

/-- What a rewritten pattern binds is what the original bound exactly if there
is nothing to bind, no rest is taken, or the rest is the same. -/
lemma ObjectPattern.bind?_renamed_eq_iff {map : FieldMap} {p : ObjectPattern}
    {runtime : PatternRuntime V} (hkeys : ∀ key ∈ p.keys, key ∈ map.keys)
    {o : RuntimeObject V} (ho : ∀ k, o.lookup? k ≠ none → k ∈ map.keys) {s : Scope V}
    (hmembers : PatternMember.bindAll? runtime
      (p.members.map (PatternMember.renamed map (plan map).renames))
      (o.renamed (plan map).renames) s = PatternMember.bindAll? runtime p.members o s) :
    (p.renamed map (plan map).renames).bind? runtime (o.renamed (plan map).renames) s =
        p.bind? runtime o s ↔
      p.bind? runtime o s = none ∨ p.rest = none ∨
        ∀ r ∈ (plan map).renames, o.lookup? r.field.key ≠ none → r.field.key ∈ p.keys := by
  obtain ⟨members, rest, close⟩ := p
  have hrenamed : (members.map (PatternMember.renamed map (plan map).renames)).map (·.key) =
      (members.map (·.key)).map (renamedKey map) := by
    simp only [List.map_map]
    exact List.map_congr_left fun member _ => PatternMember.key_renamed member
  rw [ObjectPattern.members] at hmembers
  rw [ObjectPattern.renamed, ObjectPattern.bind?, ObjectPattern.bind?, hmembers, hrenamed]
  cases PatternMember.bindAll? runtime members o s with
  | none => simp
  | some bound =>
      cases rest with
      | none => simp [ObjectPattern.rest, RestElement.bindAny?]
      | some rest =>
          simp only [Option.bind_eq_bind, Option.bind_some, RestElement.bindAny?,
            Scope.with?_eq_iff, Bound.object.injEq, ObjectPattern.rest, reduceCtorEq, false_or]
          exact or_congr_right (without_renamed_eq_iff hkeys ho)

/-- **When a resolver that takes its arguments apart binds what it bound.**
Let the parameter of a resolver be an object pattern all of whose keys are
keys of a map, and let the new names of those that are renamed be words.  The
edits of the parameter give the pattern with other keys, and none of them is
skipped.  Called with an object over the keys of the map, after its keys were
renamed as planned, the members of the pattern bind what they bound before.
The whole pattern does exactly if binding fails before as well, the pattern
takes no rest, or it names each argument that is there and renamed. -/
theorem renamed_pattern_binds_alike_iff (language : Language) (map : FieldMap)
    (p : ObjectPattern) (runtime : PatternRuntime V) {resolver : Resolver} {position : ℕ}
    {parameter : ObjectParameter} (before after : String)
    (hparam : resolver.parameters[position]? = some (.object parameter))
    (hproperties : parameter.properties = p.properties (byteLength before.toList))
    (hkeys : ∀ key ∈ p.keys, key ∈ map.keys) (hread : p.IsReadable runtime)
    (hwords : ∀ r ∈ (plan map).renames, r.field.key ∈ p.keys → isWord r.newName = true) :
    (∃ draft, resolverParameterDraft (before ++ p.written ++ after).toList language map
        (plan map).renames resolver position = .ok draft ∧
      applyEdits (before ++ p.written ++ after) draft.edits =
        ⟨before ++ (p.renamed map (plan map).renames).written ++ after, []⟩) ∧
    ∀ (o : RuntimeObject V) (s : Scope V), (∀ k, o.lookup? k ≠ none → k ∈ map.keys) →
      PatternMember.bindAll? runtime (p.renamed map (plan map).renames).members
          (o.renamed (plan map).renames) s =
        PatternMember.bindAll? runtime p.members o s ∧
      ((p.renamed map (plan map).renames).bind? runtime (o.renamed (plan map).renames) s =
          p.bind? runtime o s ↔
        p.bind? runtime o s = none ∨ p.rest = none ∨
          ∀ r ∈ (plan map).renames, o.lookup? r.field.key ≠ none → r.field.key ∈ p.keys) := by
  have hmembers (o : RuntimeObject V) (s : Scope V) : PatternMember.bindAll? runtime
      (p.members.map (PatternMember.renamed map (plan map).renames))
      (o.renamed (plan map).renames) s = PatternMember.bindAll? runtime p.members o s := by
    refine PatternMember.bindAll?_renamed (fun member hmember => ?_) hread
      (fun member hmember r hr heq => hwords r hr ?_) s
    · exact hkeys _ (List.mem_map.mpr ⟨member, hmember, rfl⟩)
    · exact List.mem_map.mpr ⟨member, hmember, heq.symm⟩
  constructor
  · refine ⟨.ofEdits (patternEdits map (plan map).renames parameter), ?_, ?_⟩
    · rw [resolverParameterDraft, hparam]
    · have htext : ∀ member ∈ p.members, member.keyText ≠ "" := fun member hmember hempty => by
        have hnone := hread member hmember
        rw [hempty, runtime.key?_empty] at hnone
        cases hnone
      rw [Draft.ofEdits, patternEdits, hproperties]
      exact applyEdits_members htext before after
  · intro o s ho
    obtain ⟨members, rest, close⟩ := p
    exact ⟨hmembers o s, ObjectPattern.bind?_renamed_eq_iff hkeys ho (hmembers o s)⟩

/-! ### Arguments of a list -/

/-- Arguments of which two are renamed, one has a name that is taken, and two
stay. -/
def listArguments : FieldMap :=
  .mk .arguments ⟨0, 70⟩
    [.field "artist_id" ⟨2, 11⟩ false ⟨2, 15⟩ (.reference "ID" ⟨13, 15⟩),
      .field "sort_by" ⟨17, 24⟩ false ⟨17, 31⟩ (.reference "Order" ⟨26, 31⟩),
      .field "sale_id" ⟨33, 40⟩ false ⟨33, 44⟩ (.reference "ID" ⟨42, 44⟩),
      .field "saleID" ⟨46, 52⟩ false ⟨46, 56⟩ (.reference "ID" ⟨54, 56⟩),
      .field "page" ⟨58, 62⟩ false ⟨58, 68⟩ (.reference "Page" ⟨64, 68⟩)]

/-- An object with each of some keys as the value under it. -/
def objectOfKeys (keys : List String) : RuntimeObject String :=
  ⟨fun k => if k ∈ keys then some (some k) else none⟩

lemma mem_of_lookup?_objectOfKeys {keys : List String} {k : String}
    (h : (objectOfKeys keys).lookup? k ≠ none) : k ∈ keys := by
  by_contra hnot
  exact h (if_neg hnot)

/-- Runs in which expressions are names of their values, something can be read
from the value of a page alone, and patterns in brackets bind nothing. -/
def listRuntime : PatternRuntime String where
  key? text :=
    if isWord text then some text
    else if text = "\"sort_by\"" then some "sort_by" else none
  key?_empty := by decide
  key?_of_isWord _ hword := if_pos hword
  value? code _ := some (some code)
  members? v := if v = some "page" then some (objectOfKeys ["page_size"]) else none
  bindOther? _ _ s := some s

/-- A pattern with a shorthand, a quoted key with a fallback, and a pattern
inside, each of which takes a rest. -/
def listPattern : ObjectPattern :=
  .braces
    [.shorthand " " "artist_id" none,
      .keyed ", " ⟨"sort_by", "\"sort_by\""⟩ ": " (.variable "order") (some ⟨" = ", "byDate"⟩),
      .keyed ", " ⟨"page", "page"⟩ ": "
        (.object (.braces [.shorthand " " "page_size" none] (some ⟨", ...", "cursor"⟩) " \x7d"))
        none]
    (some ⟨", ...", "rest"⟩) " \x7d"

/-- A resolver with the pattern as its second parameter. -/
def listResolver : Resolver :=
  ⟨⟨80, 190⟩,
    [.name "_source" ⟨1, 8⟩,
      .object ⟨⟨10, 90⟩,
        [⟨"artist_id", ⟨12, 21⟩, .shorthand⟩, ⟨"sort_by", ⟨23, 32⟩, .renamed⟩,
          ⟨"page", ⟨50, 54⟩, .renamed⟩], true⟩], .expression ⟨100, 190⟩⟩

theorem renamed_listPattern_binds_alike :
    listPattern.written = "\x7b artist_id, \"sort_by\": order = byDate, " ++
      "page: \x7b page_size, ...cursor \x7d, ...rest \x7d" ∧
    (listPattern.renamed listArguments (plan listArguments).renames).written =
      "\x7b artistID: artist_id, sortBy: order = byDate, " ++
        "page: \x7b page_size, ...cursor \x7d, ...rest \x7d" ∧
    (∃ draft, resolverParameterDraft ("(_source, " ++ listPattern.written ++ ") => []").toList
        .typeScript listArguments (plan listArguments).renames listResolver 1 = .ok draft ∧
      applyEdits ("(_source, " ++ listPattern.written ++ ") => []") draft.edits =
        ⟨"(_source, " ++ (listPattern.renamed listArguments (plan listArguments).renames).written ++
          ") => []", []⟩) ∧
    ((objectOfKeys listArguments.keys).renamed (plan listArguments).renames).lookup? "sortBy" =
      some (some "sort_by") ∧
    (listPattern.renamed listArguments (plan listArguments).renames).bind? listRuntime
        ((objectOfKeys listArguments.keys).renamed (plan listArguments).renames) ⟨fun _ => none⟩ =
      listPattern.bind? listRuntime (objectOfKeys listArguments.keys) ⟨fun _ => none⟩ ∧
    (listPattern.bind? listRuntime (objectOfKeys listArguments.keys) ⟨fun _ => none⟩).isSome := by
  have hparam : listResolver.parameters[1]? = some (.object ⟨⟨10, 90⟩,
      listPattern.properties (byteLength "(_source, ".toList), true⟩) := by
    decide +kernel
  have hboth := renamed_pattern_binds_alike_iff .typeScript listArguments listPattern listRuntime
    "(_source, " ") => []" hparam rfl (by decide +kernel) (by decide +kernel) (by decide +kernel)
  obtain ⟨-, hbind⟩ := hboth.2 (objectOfKeys listArguments.keys) ⟨fun _ => none⟩
    fun k => mem_of_lookup?_objectOfKeys
  exact ⟨by decide +kernel, by decide +kernel, hboth.1, by decide +kernel,
    hbind.mpr (Or.inr (Or.inr (by decide +kernel))), by decide +kernel⟩

/-- A pattern that takes one argument and the rest. -/
def restPattern : ObjectPattern :=
  .braces [.shorthand " " "artist_id" none] (some ⟨", ...", "rest"⟩) " \x7d"

/-- What the variable `rest` reads under a key. -/
def restReads (bound : Option (Scope String)) (key : String) : Option (Option String) :=
  match bound.bind (·.read? "rest") with
  | some (.object o) => some (o.get key)
  | _ => none

/-- A renamed argument that the pattern does not name is in the rest under its
new key: all keys of the pattern are keys of the map, and the rewritten pattern
names the same variables, but the body does not find the argument any more. -/
theorem unnamed_argument_is_renamed_in_rest :
    listArguments.keys.Nodup ∧ (plan listArguments).renames.length = 2 ∧
    (∀ key ∈ restPattern.keys, key ∈ listArguments.keys) ∧
    restPattern.written = "\x7b artist_id, ...rest \x7d" ∧
    (restPattern.renamed listArguments (plan listArguments).renames).written =
      "\x7b artistID: artist_id, ...rest \x7d" ∧
    restReads (restPattern.bind? listRuntime (objectOfKeys listArguments.keys) ⟨fun _ => none⟩)
      "sort_by" = some (some "sort_by") ∧
    restReads ((restPattern.renamed listArguments (plan listArguments).renames).bind? listRuntime
        ((objectOfKeys listArguments.keys).renamed (plan listArguments).renames) ⟨fun _ => none⟩)
      "sort_by" = some none := by
  decide +kernel

end GraphMigrate

/-
Files without anything to migrate.

A migration looks for one kind of thing only: definition sites, templates
with a known tag, or calls of test helpers.  Whatever else a script is made
of, the search for them comes back empty, nothing is drafted, and the text
is returned as it was, a byte order mark included.

* `Node.isDocument`, `Node.isHelperCall`: what two of the searches look for;
  `Locator.isSite` is what the third looks for;
* `Source.IsUnrelated`: a script in which nothing of the kind occurs;
* `definitions_eq_empty`, `templates_eq_nil`, `helperCalls_eq_empty`: the
  searches come back empty;
* `run_eq_unchanged_of_isUnrelated`: **every migration returns such a file
  as it is, without a note**.
-/
import GraphMigrate.Migration.Registry
import GraphMigrate.Proofs.Definitions.Sites
import GraphMigrate.Proofs.Migration.EarlyReturn

namespace GraphMigrate

open Script

/-! ### What the migrations look for -/

/-- A template whose tag is a plain name out of a list. -/
def Script.Node.isDocument (tags : List String) : Node → Bool
  | .tagged (.name tag _) _ _ _ _ => tags.contains tag
  | _ => false

/-- A call of one of the test helpers. -/
def Script.Node.isHelperCall : Node → Bool
  | .call (.name callee _) _ _ _ => ["renderRelayTree", "createTestEnv"].contains callee
  | _ => false

/-- A script without definition sites, without documents and without calls of
test helpers, wherever in the tree they could stand. -/
structure Script.Source.IsUnrelated (context : Context) (source : Source) : Prop where
  noSite : ∀ n ∈ source.script.preorder, Locator.isSite context.vocabulary n = false
  noDocument : ∀ n ∈ source.script.preorder, n.isDocument context.tags = false
  noHelperCall : ∀ n ∈ source.script.preorder, n.isHelperCall = false

section Searches

variable {context : Context} {file : SourceFile} {source : Source}

/-- Without definition sites, no definition is found. -/
lemma definitions_eq_empty {vocabulary : Vocabulary} (hparse : file.parse = .ok source)
    (h : ∀ n ∈ source.script.preorder, Locator.isSite vocabulary n = false) :
    file.definitions vocabulary = .ok {} := by
  have hsites : source.script.preorder.filter (Locator.isSite vocabulary) = [] :=
    List.filter_eq_nil_iff.mpr fun n hn => by simp [h n hn]
  have hlocate : locate vocabulary source = .ok {} := by
    rw [Locator.locate_eq, hsites]
    rfl
  simp only [SourceFile.definitions, hparse, hlocate, bind, Except.bind]

lemma ofNode?_of_not_isDocument {tags : List String} {n : Node}
    (h : n.isDocument tags = false) : Template.ofNode? tags source n = none := by
  unfold Node.isDocument at h
  split at h
  next tag s types segment parts span =>
    rw [Template.ofNode?, h]
    rfl
  next hother =>
    unfold Template.ofNode?
    split
    next => exact absurd rfl (hother _ _ _ _ _ _)
    next => rfl

/-- Without tagged templates, no document is found. -/
lemma templates_eq_nil {tags : List String}
    (h : ∀ n ∈ source.script.preorder, n.isDocument tags = false) :
    templates tags source = [] :=
  List.filterMap_eq_nil_iff.mpr fun n hn => ofNode?_of_not_isDocument (h n hn)

lemma calledHelper?_of_not_isHelperCall {n : Node} (h : n.isHelperCall = false) :
    calledHelper? n = none := by
  unfold Node.isHelperCall at h
  split at h
  next callee s arguments types span =>
    have hfind : helpers.find? (·.callee == callee) = none := by
      simp only [List.contains_eq_mem, List.mem_cons, List.not_mem_nil, or_false,
        decide_eq_false_iff_not, not_or] at h
      simp [helpers, Ne.symm h.1, Ne.symm h.2]
    rw [calledHelper?, hfind, Option.map_none]
  next hother =>
    unfold calledHelper?
    split
    next => exact absurd rfl (hother _ _ _ _ _)
    next => rfl

/-- Without calls of test helpers, there is nothing to be typed. -/
lemma helperCalls_eq_empty (language : Language)
    (h : ∀ n ∈ source.script.preorder, n.isHelperCall = false) :
    source.script.preorder.mapM (helperCall context language source) =
      .ok (source.script.preorder.map fun _ => {}) :=
  mapM_eq_pure fun n hn => by
    rw [helperCall, calledHelper?_of_not_isHelperCall (h n hn)]
    rfl

/-- Where there is no call, no operation needs an import and nothing is
drafted. -/
lemma concat_map_empty {α : Type} (as : List α) :
    Typing.concat (as.map fun _ => {}) = {} := by
  simp [Typing.concat, Draft.concat]

/-! ### The migrations -/

lemma renameDefinitions_of_empty (h : file.definitions context.vocabulary = .ok {}) :
    renameDefinitions context file = .ok (.unchanged file.text) := by
  rw [renameDefinitions, h]
  exact congrArg Except.ok (finish_empty file.text)

lemma pruneDeprecated_of_empty (h : file.definitions context.vocabulary = .ok {}) :
    pruneDeprecated context file = .ok (.unchanged file.text) := by
  rw [pruneDeprecated, h]
  exact congrArg Except.ok (finish_empty file.text)

lemma unifyPagination_of_empty (h : file.definitions context.vocabulary = .ok {}) :
    unifyPagination context file = .ok (.unchanged file.text) := by
  rw [unifyPagination, h]
  exact congrArg Except.ok (finish_empty file.text)

lemma renameClientFields_of_nil (hparse : file.parse = .ok source)
    (h : templates context.tags source = []) :
    renameClientFields context file = .ok (.unchanged file.text) := by
  rw [renameClientFields, hparse]
  change (migrateTemplates clientRenamer _ (templates context.tags source) >>= _) = _
  rw [h]
  exact congrArg Except.ok (finish_empty file.text)

lemma migrateIds_of_nil {schema : Document.Schema} (hschema : context.schema = some schema)
    (hparse : file.parse = .ok source) (h : templates context.tags source = []) :
    migrateIds context file = .ok (.unchanged file.text) := by
  rw [migrateIds_eq hschema]
  split
  · rw [readAndMigrateIds, hparse]
    change (identityDraft context schema source >>= _) = _
    rw [identityDraft, h]
    exact congrArg Except.ok (finish_empty file.text)
  · rfl

lemma typeFixtures_of_empty (hparse : file.parse = .ok source)
    (h : source.script.preorder.mapM (helperCall context file.language source) =
      .ok (source.script.preorder.map fun _ => {})) :
    typeFixtures context file = .ok (.unchanged file.text) := by
  rw [typeFixtures, hparse]
  change (source.script.preorder.mapM (helperCall context file.language source) >>= _) = _
  rw [h]
  change Except.ok (Draft.finish file.text _) = _
  rw [concat_map_empty]
  exact congrArg Except.ok (finish_empty file.text)

end Searches

/-- **Files without anything to migrate pass through.**  If a file parses and
its script has no definition site of the vocabulary, no template with a tag
of the context and no call of a test helper, then every migration succeeds on
it, returns its text, and neither counts it as changed nor leaves a note.
Only the migration of identity fields needs a schema for that, and any will
do. -/
theorem run_eq_unchanged_of_isUnrelated {context : Context} {file : SourceFile} {source : Source}
    (hparse : file.parse = .ok source) (h : source.IsUnrelated context) (m : Migration)
    (hschema : m.requiresSchema = true → context.schema.isSome = true) :
    m.run context file = .ok ⟨file.text, [], false⟩ := by
  have hdefinitions := definitions_eq_empty hparse h.noSite
  have htemplates := templates_eq_nil h.noDocument
  cases m with
  | definitionNames => exact renameDefinitions_of_empty hdefinitions
  | clientNames => exact renameClientFields_of_nil hparse htemplates
  | deprecation => exact pruneDeprecated_of_empty hdefinitions
  | pagination => exact unifyPagination_of_empty hdefinitions
  | identity =>
      obtain ⟨schema, hsome⟩ := Option.isSome_iff_exists.mp (hschema rfl)
      exact migrateIds_of_nil hsome hparse htemplates
  | rawResponse =>
      exact typeFixtures_of_empty hparse (helperCalls_eq_empty file.language h.noHelperCall)

/-- A script with things that resemble what the migrations look for: another
constructor, a template with another tag, one whose tag is a member, a call
of a helper that belongs to an object, and an annotated variable of another
type. -/
def resemblingFile : SourceFile :=
  ⟨"const Artist: ObjectType = new Map<string, () => void>(entries);\n" ++
    "const query = sql`SELECT artist_id FROM $\x7btable\x7d`, other = relay.graphql`\x7b _id \x7d`;\n" ++
    "export const view = <Panel render=\x7b() => env.renderRelayTree(\x7b query \x7d)\x7d />;\n",
    .tsx⟩

theorem run_eq_unchanged_of_resemblingFile :
    ∃ schema source, Document.Schema.parse? artistSchemaText = some schema ∧
      resemblingFile.parse = .ok source ∧ source.IsUnrelated { schema := some schema } ∧
      ∀ m : Migration, m.run { schema := some schema } resemblingFile =
        .ok ⟨resemblingFile.text, [], false⟩ := by
  have hcheck : (Document.Schema.parse? artistSchemaText).any (fun _ =>
      resemblingFile.parse.toOption.any fun source =>
        source.script.preorder.all fun n =>
          !Locator.isSite {} n && !n.isDocument ["graphql"] && !n.isHelperCall) = true := by
    decide +kernel
  obtain ⟨schema, hschema, hrest⟩ := Option.any_eq_true _ _ |>.mp hcheck
  obtain ⟨source, hok, hnodes⟩ := Option.any_eq_true _ _ |>.mp hrest
  simp only [List.all_eq_true, Bool.and_eq_true, Bool.not_eq_true'] at hnodes
  have hparse : resemblingFile.parse = .ok source := eq_ok_of_toOption hok
  have hunrelated : source.IsUnrelated { schema := some schema } :=
    ⟨fun n hn => (hnodes n hn).1.1, fun n hn => (hnodes n hn).1.2, fun n hn => (hnodes n hn).2⟩
  exact ⟨schema, source, hschema, hparse, hunrelated, fun m =>
    run_eq_unchanged_of_isUnrelated hparse hunrelated m fun _ => rfl⟩

end GraphMigrate

import TaggedUnion.Command.Run
import TaggedUnion.Proofs.FileTree.Saving
import TaggedUnion.Proofs.Schema.Acceptance

/-!
# The modes of a run

What a run does before it turns to the module's file does not depend on its mode, and it leaves
files alone. So runs in the three modes make the same text for the same path, and differ in what
they do with it: after a run that writes the module, what is printed is in the file, a check passes,
and writing again has nothing to change. The schema's own file is the only one that must not be
overwritten for this.
-/

namespace TaggedUnion

open FileTree Unicode

theorem isName_module : Path.IsName "mod.rs" :=
  ⟨by decide, by decide, by decide, by decide⟩

/-- The log does not show on the output stream. -/
theorem Outcome.output_events (exit : Nat) (events : List Event) (last : Note) :
    Outcome.output ⟨exit, events.map .event ++ [last]⟩ = last.output := by
  unfold Outcome.output
  induction events with
  | nil => simp
  | cons e events ih =>
      rw [List.map_cons, List.cons_append, List.map_cons, String.join_cons, ih]
      simp [Note.output]

namespace Options
variable {o : Options} {c : Circumstances} {t t' : FileTree} {product : Product}

def modulePath (o : Options) : String :=
  Path.join (Path.join o.outDir (lowercase o.base)) "mod.rs"

/-- What a run makes of the schema before it turns to the module's file. -/
def preparation (o : Options) (t : FileTree) : Preparation :=
  o.prepare (o.schemaFile.map fun path => (path, t.readText path))

theorem exists_numbered_of_load {file : Option (String × Except Refusal String)}
    {loading : Loading} {source : String} (hload : o.load file = .ok (loading, source)) :
    ∃ ls, loading = .ofNumbered o.base ls := by
  unfold load at hload
  split at hload
  · simp only [Except.ok.injEq, Prod.mk.injEq] at hload
    exact ⟨_, hload.1.symm⟩
  · simp at hload
  · simp only [Except.ok.injEq, Prod.mk.injEq] at hload
    exact ⟨_, hload.1.symm⟩

theorem base_of_load {file : Option (String × Except Refusal String)} {loading : Loading}
    {source : String} {schema : Schema} (hload : o.load file = .ok (loading, source))
    (hschema : loading.result = .ok schema) :
    schema.base = o.base ∧ isIdentifier o.base = true := by
  obtain ⟨ls, rfl⟩ := exists_numbered_of_load hload
  obtain ⟨hbase, -, vs, -, -, rfl⟩ := Loading.ofNumbered_eq_ok_iff.mp hschema
  exact ⟨rfl, hbase⟩

theorem load_of_read {file source : String} (hfile : o.schemaFile = some file)
    (hread : t.read file = .ok source.toUTF8) :
    o.load (o.schemaFile.map fun path => (path, t.readText path)) =
      .ok (.ofSource o.base source, source) := by
  rw [hfile, Option.map_some, readText_of_read hread, load]

theorem prepare_eq_ok {file : Option (String × Except Refusal String)}
    (h : (o.prepare file).result = .ok product) :
    ∃ loading source schema names, o.load file = .ok (loading, source) ∧
      loading.result = .ok schema ∧ o.names = .ok names ∧
        product = ⟨o.modulePath, names.moduleText schema.variants⟩ := by
  unfold prepare at h
  cases hload : o.load file with
  | error failure => simp [hload] at h
  | ok loaded =>
      obtain ⟨loading, source⟩ := loaded
      cases hschema : loading.result with
      | error fault => simp [hload, hschema] at h
      | ok schema =>
          cases hnames : o.names with
          | error failure => simp [hload, hschema, hnames] at h
          | ok names =>
              have hbase := (base_of_load hload hschema).1
              refine ⟨loading, source, schema, names, rfl, hschema, rfl, ?_⟩
              simp only [hload, hschema, hnames, Schema.modulePath, Schema.moduleDir, hbase] at h
              exact (Except.ok.inj h).symm

/-- The module belongs to a path that the options tell, whatever the schema says. -/
theorem path_of_preparation (h : (o.preparation t).result = .ok product) :
    product.path = o.modulePath := by
  obtain ⟨-, -, -, -, -, -, -, rfl⟩ := prepare_eq_ok h
  rfl

theorem read_of_preparation (h : (o.preparation t).result = .ok product) {file : String}
    (hfile : o.schemaFile = some file) : ∃ bytes, t.read file = .ok bytes := by
  obtain ⟨loading, source, -, -, hload, -, -, -⟩ := prepare_eq_ok h
  rw [hfile, Option.map_some] at hload
  unfold FileTree.readText at hload
  cases hread : t.read file with
  | ok bytes => exact ⟨bytes, rfl⟩
  | error e =>
      rw [hread] at hload
      simp [load] at hload

/-- A run looks at the schema's file and leaves it alone, and does the rest by its mode. -/
theorem run_eq (o : Options) (c : Circumstances) (t : FileTree) :
    o.run c t =
      let events := (o.preparation t).events
      match (o.preparation t).result, o.mode with
      | .error failure, _ => (.failed events failure, t)
      | .ok product, .print => (product.printed events, t)
      | .ok product, .check =>
        (product.checked events (t.freshness product.path product.text), t)
      | .ok product, .write =>
        let saved := t.save c product.path product.text.toUTF8
        (product.saved events saved.1, saved.2) := by
  have hread : (o.readSchema (system c)).run t =
      (o.schemaFile.map fun path => (path, t.readText path), t) := by
    unfold readSchema
    cases o.schemaFile <;> rfl
  refine (run_bind hread).trans ?_
  rw [← preparation]
  dsimp only
  cases (o.preparation t).result with
  | error failure => rfl
  | ok product =>
      cases o.mode with
      | print => rfl
      | check => rfl
      | write => exact run_bind (Prod.eta (t.save c product.path product.text.toUTF8)).symm

theorem run_of_error {failure : Failure} (h : (o.preparation t).result = .error failure) :
    o.run c t = (.failed (o.preparation t).events failure, t) := by
  rw [run_eq, h]

theorem run_print (hmode : o.mode = .print) (h : (o.preparation t).result = .ok product) :
    o.run c t = (product.printed (o.preparation t).events, t) := by
  rw [run_eq, h, hmode]

theorem run_check (hmode : o.mode = .check) (h : (o.preparation t).result = .ok product) :
    o.run c t =
      (product.checked (o.preparation t).events (t.freshness product.path product.text), t) := by
  rw [run_eq, h, hmode]

theorem run_write (hmode : o.mode = .write) (h : (o.preparation t).result = .ok product)
    {result : Except FileFault Unit}
    (hsave : t.save c product.path product.text.toUTF8 = (result, t')) :
    o.run c t = (product.saved (o.preparation t).events result, t') := by
  simp only [run_eq, h, hmode, hsave]

/-- A run that writes the module ends well if and only if the module could be made and saved. -/
theorem run_write_exit_iff (hmode : o.mode = .write) :
    (o.run c t).1.exit = 0 ↔ ∃ text, (o.preparation t).result = .ok ⟨o.modulePath, text⟩ ∧
      t.save c o.modulePath text.toUTF8 = (.ok (), (o.run c t).2) := by
  cases h : (o.preparation t).result with
  | error failure => simp [run_of_error h, Outcome.failed]
  | ok product =>
      obtain ⟨path, text⟩ := product
      have hpath : path = o.modulePath := path_of_preparation h
      subst hpath
      rcases hsave : t.save c o.modulePath text.toUTF8 with ⟨fault | _, t'⟩
      · rw [run_write hmode h hsave]
        constructor
        · intro hexit
          simp [Product.saved, Outcome.failed] at hexit
        · rintro ⟨text', htext, hsave'⟩
          rw [← (Product.mk.inj (Except.ok.inj htext)).2, hsave] at hsave'
          simp at hsave'
      · rw [run_write hmode h hsave]
        constructor
        · intro _
          exact ⟨text, rfl, hsave⟩
        · intro _
          rfl

/-- A run finds the same schema after a file other than the schema's was put. -/
theorem preparation_puts {path : String} {l : Location} {content : ByteArray}
    (hputs : PutsFile path l content t t')
    (hapart : ∀ file, o.schemaFile = some file → ¬ t'.SameFile file path)
    (h : (o.preparation t).result = .ok product) : o.preparation t' = o.preparation t := by
  unfold preparation
  cases hfile : o.schemaFile with
  | none => rfl
  | some file =>
      obtain ⟨bytes, hread⟩ := read_of_preparation h hfile
      have hread' := hputs.read_other (hapart file hfile) hread
      rw [Option.map_some, Option.map_some, FileTree.readText, FileTree.readText, hread, hread']

theorem getLast?_names_modulePath (o : Options) (n : Nat) :
    (Path.names o.modulePath).getLast? ≠ some (tempName n) := by
  have hne : "mod.rs" ≠ tempName n := by
    intro h
    have hlist := toList_tempName n
    rw [← h] at hlist
    simp at hlist
  rw [modulePath, isName_module.getLast?_names_join]
  exact fun h => hne (Option.some.inj h)

/-- After a run that writes the module, its file holds what a run that prints it shows, a check
passes, and the same run once more changes nothing. It changes nothing either if some other step is
refused then. -/
theorem modes_agree (o : Options) (c : Circumstances) (t t' : FileTree) (outcome : Outcome)
    (hwrite : { o with mode := .write }.run c t = (outcome, t')) (hexit : outcome.exit = 0)
    (hapart : ∀ file, o.schemaFile = some file → ¬ t'.SameFile file o.modulePath) :
    (∃ printed, { o with mode := .print }.run c t = (printed, t) ∧ printed.exit = 0 ∧
      t'.read o.modulePath = .ok printed.output.toUTF8) ∧
    (∃ checked, { o with mode := .check }.run c t' = (checked, t') ∧ checked.exit = 0 ∧
      checked.output = o.modulePath ++ ": ok\n") ∧
    { o with mode := .write }.run c t' = (outcome, t') ∧
    ∀ c', ({ o with mode := .write }.run c' t').2 = t' := by
  have hexit' : ({ o with mode := .write }.run c t).1.exit = 0 := by rw [hwrite, hexit]
  obtain ⟨text, hmade, hsave⟩ := (run_write_exit_iff rfl).mp hexit'
  rw [hwrite] at hsave
  change (o.preparation t).result = .ok ⟨o.modulePath, text⟩ at hmade
  change t.save c o.modulePath text.toUTF8 = (.ok (), t') at hsave
  obtain ⟨l, hputs⟩ := save_puts hsave
  have hsame := preparation_puts hputs hapart hmade
  have hmade' : (o.preparation t').result = .ok ⟨o.modulePath, text⟩ := by rw [hsame, hmade]
  refine ⟨?_, ?_, ?_, ?_⟩
  · refine ⟨_, run_print (o := { o with mode := .print }) rfl hmade, rfl, ?_⟩
    rw [Product.printed, Outcome.output_events]
    exact hputs.read
  · refine ⟨_, run_check (o := { o with mode := .check }) rfl hmade', ?_⟩
    have hfresh : t'.freshness o.modulePath text = .ok .upToDate := by
      rw [freshness, readText_of_read hputs.read]
      simp [Freshness.judge]
    rw [hfresh, Product.checked, Outcome.output_events]
    exact ⟨rfl, rfl⟩
  · have hagain := save_again hsave (getLast?_names_modulePath o)
    have hrun := run_write (o := { o with mode := .write }) rfl hmade hsave
    have hrun' := run_write (o := { o with mode := .write }) rfl hmade' hagain
    have hsame' : { o with mode := .write }.preparation t' =
        { o with mode := .write }.preparation t := hsame
    rw [hrun', hsame', ← hrun, hwrite]
  · intro c'
    rcases hsave' : t'.save c' o.modulePath text.toUTF8 with ⟨result, t''⟩
    have hsame' := save_again_unchanged hsave c'
    rw [hsave'] at hsame'
    rw [run_write (o := { o with mode := .write }) rfl hmade' hsave']
    exact hsame'

/-- A schema beside the module it is for, which is out of date. -/
def besideStale : FileTree :=
  ⟨[(["gen"], .directory), (["gen", "expr"], .directory),
    (["gen", "expr", "mod.rs"], .file "pub enum Expr".toUTF8),
    (["gen", "expr", "nodes"], .file "# nodes\nAsm | Expr, Expr\n".toUTF8)]⟩

theorem modes_agree_besideStale :
    let o : Options := ⟨"new/../gen", some "gen/expr/nodes", "Expr", none, .write⟩
    let t' := (o.run .plain besideStale).2
    (o.run .plain besideStale).1.exit = 0 ∧ ¬ t'.SameFile "gen/expr/nodes" o.modulePath ∧
      (∃ printed, { o with mode := .print }.run .plain besideStale = (printed, besideStale) ∧
        printed.exit = 0 ∧ t'.read o.modulePath = .ok printed.output.toUTF8) ∧
      (∃ checked, { o with mode := .check }.run .plain t' = (checked, t') ∧ checked.exit = 0 ∧
        checked.output = o.modulePath ++ ": ok\n") ∧
      o.run .plain t' = ((o.run .plain besideStale).1, t') ∧ ∀ c, (o.run c t').2 = t' := by
  intro o t'
  have hexit : (o.run .plain besideStale).1.exit = 0 := by decide +kernel
  have hapart : ¬ t'.SameFile "gen/expr/nodes" o.modulePath := by decide +kernel
  refine ⟨hexit, hapart, modes_agree o .plain besideStale t' _ (Prod.eta _).symm hexit ?_⟩
  intro file hfile
  cases hfile
  exact hapart

end Options

end TaggedUnion

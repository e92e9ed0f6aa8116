import TaggedUnion.Proofs.Command.Sessions
import TaggedUnion.Proofs.Declaration.Boxing
import TaggedUnion.Proofs.FileTree.Atomicity
import TaggedUnion.Proofs.Lowercasing

/-!
# Where a run can write

The directory of a module is one proper name, so the module is two steps below the output
directory: the path leads through that directory, whatever dots the output directory has itself.

A run asks for an output directory with a name. What it changes is the file of the module, the
directory of the module, or a directory on the way to the output directory that was missing.
-/

namespace TaggedUnion

open FileTree Unicode

theorem isName_lowercase {base : String} (h : isIdentifier base = true) :
    Path.IsName (lowercase base) := by
  have hword := isWord_of_isIdentifier h
  have hdot : '.' ∉ (lowercase base).toList := hword.lowercase_notMem (by simp)
  refine ⟨lowercase_ne_empty hword.ne_nil, hword.lowercase_notMem (by simp), ?_, ?_⟩
  · intro hname
    simp [hname] at hdot
  · intro hname
    simp [hname] at hdot

namespace FileTree
variable {t t' : FileTree} {l : Location}

/-- Where the file is the same and the entry is not, there is a new directory. -/
theorem KeepsDirectories.new_directory (h : KeepsDirectories t t')
    (hfile : t'.file? l = t.file? l) (hl : t'.get? l ≠ t.get? l) :
    t.get? l ≠ some .directory ∧ t'.get? l = some .directory := by
  refine ⟨fun hold => hl (by rw [hold, h l hold]), ?_⟩
  cases hnew : t'.get? l with
  | none =>
      cases hold : t.get? l with
      | none => exact absurd (by rw [hnew, hold]) hl
      | some e =>
          cases e with
          | directory =>
              rw [h l hold] at hnew
              simp at hnew
          | file content =>
              rw [file?_eq_some_iff.mpr hold, file?_eq_some_iff, hnew] at hfile
              simp at hfile
  | some e =>
      cases e with
      | directory => rfl
      | file content =>
          rw [file?_eq_some_iff.mpr hnew, eq_comm, file?_eq_some_iff] at hfile
          exact absurd (by rw [hnew, hfile]) hl

end FileTree

/-- What belongs to a module below an output directory: the file, the directory that it is in, and
the directories on the way there. -/
inductive Belongs (t : FileTree) (outDir moduleDir : String) : Location → Entry → Prop where
  | file {folder : Location} (content : ByteArray) : t.directoryAt outDir = .ok folder →
      Belongs t outDir moduleDir (folder ++ [moduleDir, "mod.rs"]) (.file content)
  | directory {folder : Location} : t.directoryAt outDir = .ok folder →
      Belongs t outDir moduleDir (folder ++ [moduleDir]) .directory
  | above {p : String} {l : Location} : Path.Above p outDir → t.directoryAt p = .ok l →
      Belongs t outDir moduleDir l .directory

section Belonging
variable {t : FileTree} {outDir moduleDir : String} {l : Location}

theorem belongs_directory (hdir : outDir ≠ "") (hname : Path.IsName moduleDir) {p : String}
    (hp : Path.Above p (Path.join outDir moduleDir)) (h : t.directoryAt p = .ok l) :
    Belongs t outDir moduleDir l .directory := by
  rcases hname.above_join hp with rfl | habove
  · obtain ⟨folder, hfolder, rfl⟩ := directoryAt_join hname hdir h
    exact .directory hfolder
  · exact .above habove h

theorem fileSite_modulePath (hdir : outDir ≠ "") (hname : Path.IsName moduleDir)
    (h : t.fileSite (Path.join (Path.join outDir moduleDir) "mod.rs") = .ok l) :
    ∃ folder, t.directoryAt outDir = .ok folder ∧ l = folder ++ [moduleDir, "mod.rs"] := by
  obtain ⟨inner, hinner, rfl⟩ := fileSite_join isName_module (hname.join_ne_empty hdir) h
  obtain ⟨folder, hfolder, rfl⟩ := directoryAt_join hname hdir hinner
  exact ⟨folder, hfolder, by simp⟩

theorem directory_modulePath (hdir : outDir ≠ "") (hname : Path.IsName moduleDir) :
    Path.directory (Path.join (Path.join outDir moduleDir) "mod.rs") =
      Path.join outDir moduleDir := by
  rw [Path.directory, Path.parent?_join_join hdir hname isName_module]
  dsimp only
  rw [if_neg (by simpa using hname.join_ne_empty hdir)]

end Belonging

section Arguments
variable {d d' : Draft} {o : Options}

/-- A draft has no directory yet, or one with a name. -/
def Draft.Named (d : Draft) : Prop :=
  d.outDir ≠ some ""

theorem Draft.named_of_addPlain {value : String} (hd : d.addPlain value = .ok d') : d'.Named := by
  unfold Draft.addPlain at hd
  split_ifs at hd with hempty
  rw [← Except.ok.inj hd]
  simp_all [Draft.Named]

theorem Draft.Named.addSetting {value : String} {s : Setting} (h : d.Named)
    (hd : d.addSetting value s = .ok d') : d'.Named := by
  cases s <;> rw [Draft.addSetting] at hd <;> split_ifs at hd <;> rw [← Except.ok.inj hd] <;>
    exact h

theorem Draft.Named.addSwitch {s : Switch} (h : d.Named) (hd : d.addSwitch s = .ok d') :
    d'.Named := by
  cases s <;> simp only [Draft.addSwitch, reduceCtorEq] at hd <;> split_ifs at hd <;>
    rw [← Except.ok.inj hd] <;> exact h

theorem Draft.Named.finish (h : d.Named) (ho : d.finish = .ok o) : o.outDir ≠ "" := by
  unfold Draft.finish at ho
  cases hdir : d.outDir with
  | none => simp [hdir] at ho
  | some dir =>
      cases hmode : d.mode? with
      | none => simp [hdir, hmode] at ho
      | some mode =>
          simp only [hdir, hmode, Except.ok.injEq] at ho
          rw [← ho]
          rintro rfl
          exact h hdir

theorem Draft.Named.readPlain {args : List String} (h : d.Named)
    (ho : d.readPlain args = .ok o) : o.outDir ≠ "" := by
  induction args generalizing d with
  | nil => exact h.finish ho
  | cons arg args ih =>
      rw [Draft.readPlain] at ho
      cases hd : d.addPlain arg with
      | error ending => simp [hd, bind, Except.bind] at ho
      | ok d' =>
          rw [hd] at ho
          exact ih (Draft.named_of_addPlain hd) ho

theorem Draft.Named.read {args : List String} {awaited : Option Setting} (h : d.Named)
    (ho : d.read awaited args = .ok o) : o.outDir ≠ "" := by
  induction args generalizing d awaited with
  | nil =>
      rw [Draft.read] at ho
      split_ifs at ho
      exact h.finish ho
  | cons arg args ih =>
      -- every step is one of the additions, after which the rest is read
      have hstep : ∀ {next : Except Ending Draft}, (∀ d', next = .ok d' → d'.Named) →
          (next >>= fun d' => d'.read none args) = .ok o → o.outDir ≠ "" := by
        intro next hnamed hnext
        cases next with
        | error ending => simp [bind, Except.bind] at hnext
        | ok d' => exact ih (hnamed d' rfl) hnext
      unfold Draft.read at ho
      split at ho
      · exact hstep (fun d' hd => h.addSetting hd) ho
      · simp at ho
      · exact hstep (fun d' hd => Draft.named_of_addPlain hd) ho
      · exact hstep (fun d' hd => h.addSetting hd) ho
      · exact ih h ho
      · exact hstep (fun d' hd => h.addSwitch hd) ho
      · split_ifs at ho
        exact h.readPlain ho

theorem Options.outDir_ne_empty {args : List String} (h : Options.ofArguments args = .ok o) :
    o.outDir ≠ "" := by
  apply Draft.Named.read _ h
  simp [Draft.Named, Draft.empty]

end Arguments

section Runs
variable {c : Circumstances} {args : List String} {t : FileTree} {o : Options} {l : Location}

/-- Only a run that has made the module, and is to write it, changes anything. -/
theorem writes_of_changed (h : (runCommand c args t).2.get? l ≠ t.get? l) :
    ∃ o product, Options.ofArguments args = .ok o ∧ o.mode = .write ∧
      (o.preparation t).result = .ok product := by
  have heffect := runEffect_runCommand c args t
  cases hargs : Options.ofArguments args with
  | error ending => exact absurd (by rw [heffect.ended ending hargs]) h
  | ok o =>
      cases hmade : (o.preparation t).result with
      | error failure => exact absurd (by rw [heffect.unmade o failure hargs hmade]) h
      | ok product =>
          refine ⟨o, product, rfl, ?_, hmade⟩
          by_contra hmode
          exact h (by rw [heffect.unwritten o hargs hmode])

theorem isIdentifier_of_preparation {product : Product}
    (h : (o.preparation t).result = .ok product) : isIdentifier o.base = true := by
  obtain ⟨loading, source, schema, names, hload, hschema, -, -⟩ := Options.prepare_eq_ok h
  exact (Options.base_of_load hload hschema).2

theorem belongs_of_changed (hargs : Options.ofArguments args = .ok o) (hmode : o.mode = .write)
    (hbase : isIdentifier o.base = true) (h : (runCommand c args t).2.get? l ≠ t.get? l) :
    ∃ e, (runCommand c args t).2.get? l = some e ∧
      Belongs (runCommand c args t).2 o.outDir (lowercase o.base) l e := by
  have heffect := runEffect_runCommand c args t
  have hdir := Options.outDir_ne_empty hargs
  have hname := isName_lowercase hbase
  by_cases hexit : (runCommand c args t).1.exit = 0
  · obtain ⟨site, text, -, -, hputs⟩ := heffect.written o hargs hmode hexit
    by_cases hl : l = site
    · obtain ⟨folder, hfolder, hsite⟩ := fileSite_modulePath hdir hname hputs.site
      refine ⟨.file text.toUTF8, ?_, ?_⟩
      · rw [hl]
        exact file?_eq_some_iff.mp hputs.written
      · rw [hl, hsite]
        exact .file _ hfolder
    · obtain ⟨hold, hnew⟩ := hputs.kept.new_directory (hputs.others l hl) h
      obtain ⟨p, hp, hat⟩ := hputs.added l hold hnew
      rw [Options.modulePath, directory_modulePath hdir hname] at hp
      exact ⟨.directory, hnew, belongs_directory hdir hname hp hat⟩
  · obtain ⟨hadds, hfiles⟩ := heffect.failed o hargs hmode hexit
    obtain ⟨hold, hnew⟩ := hadds.keepsDirectories.new_directory (hfiles l) h
    obtain ⟨p, hp, hat⟩ := hadds.exists_way hold hnew
    exact ⟨.directory, hnew, belongs_directory hdir hname hp hat⟩

theorem site_of_writtenModule? {text : String} (h : writtenModule? c args t = some (l, text)) :
    ∃ o, Options.ofArguments args = .ok o ∧ isIdentifier o.base = true ∧
      (runCommand c args t).2.fileSite o.modulePath = .ok l := by
  unfold writtenModule? at h
  cases hargs : Options.ofArguments args with
  | error ending => simp [hargs] at h
  | ok o =>
      rw [hargs] at h
      dsimp only at h
      split_ifs at h
      cases hmade : (o.preparation t).result with
      | error failure => simp [hmade] at h
      | ok product =>
          cases hsite : (o.run c t).2.fileSite o.modulePath with
          | error why => simp [hmade, hsite] at h
          | ok site =>
              simp only [hmade, hsite, Option.some.injEq, Prod.mk.injEq] at h
              rw [runCommand_of_ok hargs, ← h.1]
              exact ⟨o, rfl, isIdentifier_of_preparation hmade, hsite⟩

end Runs

/-- The path of a module leads through one proper name below the output directory, and a run writes
the module there. All else that a run changes is that directory, where it was missing, and those on
the way to the output directory. -/
theorem modulePath_contained :
    (∀ (s : Schema) (outDir : String), isIdentifier s.base = true → outDir ≠ "" →
      (s.moduleDir ≠ "" ∧ '/' ∉ s.moduleDir.toList ∧ '.' ∉ s.moduleDir.toList) ∧
      s.modulePath outDir = outDir ++ (if outDir.toList.getLast? = some '/' then "" else "/") ++
        s.moduleDir ++ "/mod.rs" ∧
      Path.parent? (s.modulePath outDir) = some (Path.join outDir s.moduleDir) ∧
      Path.names (s.modulePath outDir) = Path.names outDir ++ [s.moduleDir, "mod.rs"]) ∧
    ∀ (c : Circumstances) (args : List String) (t : FileTree),
      (∀ l text, writtenModule? c args t = some (l, text) →
        ∃ o folder, Options.ofArguments args = .ok o ∧ isIdentifier o.base = true ∧
          (runCommand c args t).2.directoryAt o.outDir = .ok folder ∧
            l = folder ++ [lowercase o.base, "mod.rs"]) ∧
      ∀ l, (runCommand c args t).2.get? l ≠ t.get? l →
        ∃ o e, Options.ofArguments args = .ok o ∧ isIdentifier o.base = true ∧
          (runCommand c args t).2.get? l = some e ∧
            Belongs (runCommand c args t).2 o.outDir (lowercase o.base) l e := by
  refine ⟨?_, fun c args t => ⟨?_, ?_⟩⟩
  · intro s outDir hbase hdir
    have hword := isWord_of_isIdentifier hbase
    have hname : Path.IsName s.moduleDir := isName_lowercase hbase
    have hinner := hname.join_ne_empty hdir
    refine ⟨⟨hname.ne_empty, hname.slash_notMem, hword.lowercase_notMem (by simp)⟩, ?_,
      Path.parent?_join_join hdir hname isName_module, ?_⟩
    · have hend : "/mod.rs" = "/" ++ "mod.rs" := by decide
      rw [Schema.modulePath, isName_module.join_eq hinner, if_neg (hname.getLast?_join hdir),
        hname.join_eq hdir, hend, ← String.append_assoc]
    · rw [Schema.modulePath, isName_module.names_join hinner, hname.names_join hdir]
      simp
  · intro l text hwritten
    obtain ⟨o, hargs, hbase, hsite⟩ := site_of_writtenModule? hwritten
    obtain ⟨folder, hfolder, hl⟩ :=
      fileSite_modulePath (Options.outDir_ne_empty hargs) (isName_lowercase hbase) hsite
    exact ⟨o, folder, hargs, hbase, hfolder, hl⟩
  · intro l hl
    obtain ⟨o, product, hargs, hmode, hmade⟩ := writes_of_changed hl
    have hbase := isIdentifier_of_preparation hmade
    obtain ⟨e, he, hbelongs⟩ := belongs_of_changed hargs hmode hbase hl
    exact ⟨o, e, hargs, hbase, he, hbelongs⟩

def oneSchema : FileTree :=
  ⟨[(["nodes"], .file "Asm | B".toUTF8)]⟩

/-- A name that is longer in lower case and ends in another sigma than it would on its own, below a
directory that is not there yet. -/
theorem modulePath_contained_sigma :
    let s : Schema := ⟨"İΣ", []⟩
    let args := ["-s", "nodes", "-b", s.base, "gen/"]
    let t' := (runCommand .plain args oneSchema).2
    (isIdentifier s.base = true ∧ s.moduleDir = "i\u0307ς" ∧
      s.modulePath "gen/" = "gen/i\u0307ς/mod.rs" ∧
      Path.parent? (s.modulePath "gen/") = some (Path.join "gen/" s.moduleDir)) ∧
    (∃ l text o folder, writtenModule? .plain args oneSchema = some (l, text) ∧
      Options.ofArguments args = .ok o ∧ t'.directoryAt o.outDir = .ok folder ∧
        l = folder ++ [lowercase o.base, "mod.rs"]) ∧
    t'.get? ["gen"] ≠ oneSchema.get? ["gen"] ∧
      ∃ o e, Options.ofArguments args = .ok o ∧ t'.get? ["gen"] = some e ∧
        Belongs t' o.outDir (lowercase o.base) ["gen"] e := by
  intro s args t'
  obtain ⟨hpaths, hruns⟩ := modulePath_contained
  have hbase : isIdentifier s.base = true := by decide +kernel
  have hmoduleDir : s.moduleDir = "i\u0307ς" := by decide +kernel
  refine ⟨⟨hbase, hmoduleDir, ?_⟩, ?_, ?_⟩
  · obtain ⟨-, hpath, hparent, -⟩ := hpaths s "gen/" hbase (by decide)
    refine ⟨?_, hparent⟩
    rw [hpath, hmoduleDir]
    decide
  · have hsome : (writtenModule? .plain args oneSchema).isSome = true := by decide +kernel
    obtain ⟨⟨l, text⟩, hwritten⟩ := Option.isSome_iff_exists.mp hsome
    obtain ⟨o, folder, hargs, -, hfolder, hl⟩ := (hruns .plain args oneSchema).1 l text hwritten
    exact ⟨l, text, o, folder, hwritten, hargs, hfolder, hl⟩
  · have hsome : (t'.get? ["gen"]).isSome = true := by decide +kernel
    have hchanged : t'.get? ["gen"] ≠ oneSchema.get? ["gen"] := by
      intro hsame
      rw [hsame] at hsome
      exact absurd hsome (by decide)
    obtain ⟨o, e, hargs, -, he, hbelongs⟩ := (hruns .plain args oneSchema).2 ["gen"] hchanged
    exact ⟨hchanged, o, e, hargs, he, hbelongs⟩

end TaggedUnion

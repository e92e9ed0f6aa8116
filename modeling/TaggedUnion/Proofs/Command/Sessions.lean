import TaggedUnion.Proofs.Command.Modes

/-!
# What runs leave behind

A run changes files only if it is to write the module, and then only if it can make the module. If
writing fails, directories on the way to the module may have been added; otherwise the module's file
is the only one that is different. `RunEffect` says this of one run, whatever steps of saving the
module are refused to it.

In a session, in which runs follow one another, every file therefore has the bytes that were written
to it last, and a file that was never written has those it had at the start.
-/

namespace TaggedUnion

open FileTree Unicode

namespace Options
variable {o : Options} {c : Circumstances} {t : FileTree}

theorem run_of_mode_ne (hmode : o.mode ≠ .write) : (o.run c t).2 = t := by
  cases h : (o.preparation t).result with
  | error failure => rw [run_of_error h]
  | ok product =>
      cases hcase : o.mode with
      | write => exact absurd hcase hmode
      | check => rw [run_check hcase h]
      | print => rw [run_print hcase h]

theorem run_write_puts (hmode : o.mode = .write) (hexit : (o.run c t).1.exit = 0) :
    ∃ l text, (o.preparation t).result = .ok ⟨o.modulePath, text⟩ ∧
      PutsFile o.modulePath l text.toUTF8 t (o.run c t).2 := by
  obtain ⟨text, hmade, hsave⟩ := (run_write_exit_iff hmode).mp hexit
  obtain ⟨l, hputs⟩ := save_puts hsave
  exact ⟨l, text, hmade, hputs⟩

/-- A run that fails to write the module may have made directories above it, and that is all. -/
theorem run_write_fails (hmode : o.mode = .write) (hexit : (o.run c t).1.exit ≠ 0) :
    AddsDirectories (Path.Above · (Path.join o.outDir (lowercase o.base))) t (o.run c t).2 := by
  cases h : (o.preparation t).result with
  | error failure =>
      rw [run_of_error h]
      exact .refl _ t
  | ok product =>
      have hpath := path_of_preparation h
      rcases hsave : t.save c product.path product.text.toUTF8 with ⟨fault | _, t'⟩
      · rw [run_write hmode h hsave]
        apply (save_fails hsave).mono
        intro p hp
        rw [hpath] at hp
        exact Path.above_of_mem_upward_directory (by decide) hp
      · rw [run_write hmode h hsave] at hexit
        exact absurd rfl hexit

end Options

/-- Where a run wrote its module, and the text. -/
def writtenModule? (c : Circumstances) (args : List String) (t : FileTree) :
    Option (Location × String) :=
  match Options.ofArguments args with
  | .error _ => none
  | .ok o =>
    if o.mode = .write ∧ (o.run c t).1.exit = 0 then
      match (o.preparation t).result, (o.run c t).2.fileSite o.modulePath with
      | .ok product, .ok l => some (l, product.text)
      | _, _ => none
    else none

/-- What a run may do to the files, by how it was called and how it ended. -/
structure RunEffect (c : Circumstances) (args : List String) (outcome : Outcome)
    (t t' : FileTree) : Prop where
  /-- Arguments that ask for no run leave the tree as it was. -/
  ended : ∀ ending, Options.ofArguments args = .error ending → t' = t
  /-- So does a run that cannot make the module. -/
  unmade : ∀ o failure, Options.ofArguments args = .ok o →
    (o.preparation t).result = .error failure → t' = t
  /-- So does a run that only prints or checks it. -/
  unwritten : ∀ o, Options.ofArguments args = .ok o → o.mode ≠ .write → t' = t
  failed : ∀ o, Options.ofArguments args = .ok o → o.mode = .write → outcome.exit ≠ 0 →
    AddsDirectories (Path.Above · (Path.join o.outDir (lowercase o.base))) t t' ∧
      ∀ l, t'.file? l = t.file? l
  written : ∀ o, Options.ofArguments args = .ok o → o.mode = .write → outcome.exit = 0 →
    ∃ l text, (o.preparation t).result = .ok ⟨o.modulePath, text⟩ ∧
      writtenModule? c args t = some (l, text) ∧ PutsFile o.modulePath l text.toUTF8 t t'

section Run
variable {c : Circumstances} {args : List String} {t : FileTree} {o : Options}

theorem runCommand_of_error {ending : Ending} (hargs : Options.ofArguments args = .error ending) :
    runCommand c args t = (ending.outcome, t) := by
  simp only [runCommand, command, hargs]
  rfl

theorem runCommand_of_ok (hargs : Options.ofArguments args = .ok o) :
    runCommand c args t = o.run c t := by
  simp only [runCommand, command, hargs]
  rfl

theorem writtenModule?_of_puts {l : Location} {text : String} {content : ByteArray}
    (hargs : Options.ofArguments args = .ok o) (hmode : o.mode = .write)
    (hexit : (o.run c t).1.exit = 0)
    (hmade : (o.preparation t).result = .ok ⟨o.modulePath, text⟩)
    (hputs : PutsFile o.modulePath l content t (o.run c t).2) :
    writtenModule? c args t = some (l, text) := by
  simp only [writtenModule?, hargs, hmode, hexit, hmade, hputs.site, and_self, if_true]

theorem runEffect_runCommand (c : Circumstances) (args : List String) (t : FileTree) :
    RunEffect c args (runCommand c args t).1 t (runCommand c args t).2 where
  ended ending hargs := by rw [runCommand_of_error hargs]
  unmade o failure hargs h := by rw [runCommand_of_ok hargs, Options.run_of_error h]
  unwritten o hargs hmode := by rw [runCommand_of_ok hargs, Options.run_of_mode_ne hmode]
  failed o hargs hmode hexit := by
    rw [runCommand_of_ok hargs] at hexit ⊢
    have hadds := Options.run_write_fails hmode hexit
    exact ⟨hadds, hadds.file?⟩
  written o hargs hmode hexit := by
    rw [runCommand_of_ok hargs] at hexit ⊢
    obtain ⟨l, text, hmade, hputs⟩ := Options.run_write_puts hmode hexit
    exact ⟨l, text, hmade, writtenModule?_of_puts hargs hmode hexit hmade hputs, hputs⟩

theorem file?_runCommand (c : Circumstances) (args : List String) (t : FileTree) (l : Location) :
    (runCommand c args t).2.file? l =
      (((writtenModule? c args t).toList.lookup l).map String.toUTF8).or (t.file? l) := by
  have heffect := runEffect_runCommand c args t
  cases hargs : Options.ofArguments args with
  | error ending =>
      rw [heffect.ended ending hargs]
      simp [writtenModule?, hargs]
  | ok o =>
      by_cases hwrites : o.mode = .write ∧ (o.run c t).1.exit = 0
      · obtain ⟨hmode, hexit⟩ := hwrites
        rw [← runCommand_of_ok hargs] at hexit
        obtain ⟨m, text, -, hwritten, hputs⟩ := heffect.written o hargs hmode hexit
        rw [hwritten, Option.toList_some]
        by_cases hl : l = m
        · subst hl
          simp [hputs.written]
        · have hbeq : (l == m) = false := beq_eq_false_iff_ne.mpr hl
          simp [List.lookup_cons, hbeq, hputs.others l hl]
      · have hnone : writtenModule? c args t = none := by
          simp only [writtenModule?, hargs, if_neg hwrites]
        rw [hnone]
        by_cases hmode : o.mode = .write
        · have hexit : (runCommand c args t).1.exit ≠ 0 := by
            rw [runCommand_of_ok hargs]
            exact fun h => hwrites ⟨hmode, h⟩
          simpa using (heffect.failed o hargs hmode hexit).2 l
        · rw [heffect.unwritten o hargs hmode]
          simp

end Run

/-- A call of the command, in the circumstances of its time. -/
structure Call where
  circumstances : Circumstances
  args : List String

def Call.run (call : Call) (t : FileTree) : Outcome × FileTree :=
  runCommand call.circumstances call.args t

def Call.written? (call : Call) (t : FileTree) : Option (Location × String) :=
  writtenModule? call.circumstances call.args t

def session (t : FileTree) (calls : List Call) : FileTree :=
  calls.foldl (fun t call => (call.run t).2) t

def writtenModules : FileTree → List Call → List (Location × String)
  | _, [] => []
  | t, call :: calls => (call.written? t).toList ++ writtenModules (call.run t).2 calls

theorem session_append (t : FileTree) (calls : List Call) (call : Call) :
    session t (calls ++ [call]) = (call.run (session t calls)).2 := by
  simp [session]

theorem file?_session (t : FileTree) (calls : List Call) (l : Location) :
    (session t calls).file? l =
      (((writtenModules t calls).reverse.lookup l).map String.toUTF8).or (t.file? l) := by
  induction calls generalizing t with
  | nil => simp [session, writtenModules]
  | cons call calls ih =>
      -- a run writes at most one module, so its own list is the same in reverse
      have hreverse : (call.written? t).toList.reverse = (call.written? t).toList := by
        cases call.written? t <;> rfl
      change (session (call.run t).2 calls).file? l = _
      rw [ih, Call.run, file?_runCommand, ← Call.written?, writtenModules, List.reverse_append,
        hreverse, List.lookup_append, Option.map_or, Option.or_assoc, Call.run]

/-- Each run of a session has the effect it may have on the files as it finds them, whatever is
refused to it, and each file ends with what the last run to write it put there, or as it was at the
start. -/
theorem session_effects (t₀ : FileTree) (calls : List Call) :
    (∀ before call after, calls = before ++ call :: after →
      ∃ outcome, call.run (session t₀ before) = (outcome, session t₀ (before ++ [call])) ∧
        RunEffect call.circumstances call.args outcome (session t₀ before)
          (session t₀ (before ++ [call]))) ∧
    ∀ l, (session t₀ calls).file? l =
      (((writtenModules t₀ calls).reverse.lookup l).map String.toUTF8).or (t₀.file? l) := by
  constructor
  · intro before call after _
    refine ⟨(call.run (session t₀ before)).1, ?_, ?_⟩
    · rw [session_append]
    · rw [session_append]
      exact runEffect_runCommand call.circumstances call.args (session t₀ before)
  · exact file?_session t₀ calls

end TaggedUnion

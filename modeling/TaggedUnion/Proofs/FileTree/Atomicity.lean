import Mathlib.Logic.Relation
import TaggedUnion.Proofs.FileTree.Saving

/-!
# Saving is all or nothing

A file that is saved has the new bytes and no other file has changed, or no file has changed at all.
Directories can be left behind by a failure, but none that is not above the file.

A failure is one of making the directory exactly if no way of making directories leads to a tree
that has it. For this a tree with the directory is held against the ones that saving goes through:
they stay below it, since whatever they lack can still be made, and what they have, it has too.
-/

namespace TaggedUnion.FileTree

def Extends (t u : FileTree) : Prop :=
  ∀ l e, t.get? l = some e → u.get? l = some e

section Walking
variable {t u : FileTree}

theorem isDirectory_of_above {p q : String} (hp : p ≠ "") (h : Path.Above p q)
    (hq : t.isDirectory q = true) : t.isDirectory p = true := by
  obtain ⟨l, hl⟩ := isDirectory_iff.mp hq
  obtain ⟨husable, hwalk⟩ := directoryAt_eq_ok_iff_walk.mp hl
  obtain ⟨rest, hrest, hcut⟩ := h
  obtain ⟨more, hnames⟩ : ∃ more, Path.names q = Path.names p ++ more := by
    rcases hcut with rfl | hhead
    · rw [List.append_nil] at hrest
      exact ⟨[], by rw [String.toList_inj.mp hrest, List.append_nil]⟩
    · obtain ⟨below, rfl⟩ := List.head?_eq_some_iff.mp hhead
      exact ⟨_, Path.names_append_slash hrest⟩
  rw [hnames] at hwalk
  obtain ⟨m, hm, -⟩ := walk_append_eq_ok_iff.mp hwalk
  exact isDirectory_iff.mpr ⟨m, directoryAt_eq_ok_iff_walk.mpr ⟨husable.of_append hp hrest, hm⟩⟩

theorem Extends.enter (h : Extends t u) {here l : Location} {name : String}
    (hl : u.enter here name = .ok l) :
    t.enter here name = .ok l ∨ t.enter here name = .error .noEntry := by
  unfold FileTree.enter at hl ⊢
  split_ifs at hl ⊢ with hdot hdots hlong
  · exact .inl hl
  · exact .inl hl
  · cases hentry : t.get? (here ++ [name]) with
    | none => exact .inr rfl
    | some e =>
        rw [h _ e hentry] at hl
        exact .inl hl

theorem Extends.walk (h : Extends t u) {here l : Location} {names : List String}
    (hl : u.walk here names = .ok l) :
    t.walk here names = .ok l ∨ t.walk here names = .error .noEntry := by
  induction names generalizing here with
  | nil => exact .inl hl
  | cons name names ih =>
      rw [FileTree.walk] at hl ⊢
      cases hnext : u.enter here name with
      | error e => simp [hnext] at hl
      | ok next =>
          rw [hnext] at hl
          rcases h.enter hnext with hsame | hmissing
          · rw [hsame]
            exact ih hl
          · rw [hmissing]
            exact .inr rfl

theorem Extends.follow (h : Extends t u) {path : String} {goal : Goal}
    (hg : u.follow path = .ok goal) :
    t.follow path = .ok goal ∨ t.follow path = .error .noEntry := by
  obtain ⟨husable, ⟨hnames, hgoal⟩ | ⟨before, last, folder, hnames, hwalk, hgoal⟩⟩ :=
    follow_eq_ok_iff.mp hg
  · exact .inl (follow_eq_ok_iff.mpr ⟨husable, .inl ⟨hnames, hgoal⟩⟩)
  · rcases h.walk hwalk with hsame | hmissing
    · left
      rw [follow_of_walk_ok husable hnames hsame, hgoal]
    · exact .inr (follow_of_walk_error husable hnames hmissing)

theorem Goal.ofName_ne_noEntry (folder : Location) (last : String) (slash : Bool) :
    Goal.ofName folder last slash ≠ .error .noEntry := by
  unfold Goal.ofName
  split_ifs <;> simp

/-- Nothing is missing if all names but the last can be entered. -/
theorem follow_ne_noEntry {path : String} {l : Location} (hpath : path ≠ "")
    (hl : t.walk [] (Path.names path).dropLast = .ok l) : t.follow path ≠ .error .noEntry := by
  rw [follow, hl]
  split_ifs
  · simp
  · simp
  · cases (Path.names path).getLast? with
    | none => simp
    | some last => exact Goal.ofName_ne_noEntry l last _

end Walking

def MakesDirectories : FileTree → FileTree → Prop :=
  Relation.ReflTransGen fun t t' => ∃ path, t.makeDirectory path = .ok t'

theorem MakesDirectories.extends {t t' : FileTree} (h : MakesDirectories t t') :
    Extends t t' := by
  induction h with
  | refl => exact fun _ _ he => he
  | tail _ hstep ih =>
      obtain ⟨path, hmake⟩ := hstep
      exact fun l e he => (makeDirectory_adds hmake).1.kept l e (ih l e he)

section Making
variable {t t' u : FileTree} {path : String}

theorem ensureDirectory_of_isDirectory (h : t.isDirectory path = true) :
    t.ensureDirectory path = (.ok (), t) := by
  rw [ensureDirectory_of_error (makeDirectory_of_isDirectory h), if_pos h]

theorem ensureDirectory_makes (t : FileTree) (path : String) :
    MakesDirectories t (t.ensureDirectory path).2 := by
  cases hmake : t.makeDirectory path with
  | ok t' =>
      rw [ensureDirectory_of_ok hmake]
      exact .single ⟨path, hmake⟩
  | error why =>
      rw [ensureDirectory_of_error hmake]
      exact .refl

theorem makeNested_makes (paths : List String) (t : FileTree) :
    MakesDirectories t (makeNested paths t).2 := by
  induction paths with
  | nil => exact .refl
  | cons path above ih =>
      rcases makeNested_cons_cases path above t with h | ⟨why, t₁, hmade, h⟩ | ⟨t₁, hmade, h⟩
      · rw [h]
        exact ensureDirectory_makes t path
      · rw [h]
        rw [hmade] at ih
        exact ih
      · rw [h]
        rw [hmade] at ih
        exact ih.trans (ensureDirectory_makes t₁ path)

theorem makeDirectories_makes {result : Except Refusal Unit}
    (h : t.makeDirectories path = (result, t')) : MakesDirectories t t' := by
  have hmakes := makeNested_makes (Path.upward path) t
  rwa [makeNested, ← makeDirectories, h] at hmakes

/-- A directory of a larger tree is there, or something on its way is missing, or it can be made
and the larger tree is still larger. -/
theorem makeDirectory_below (h : Extends t u) (hu : u.isDirectory path = true) :
    t.isDirectory path = true ∨ t.makeDirectory path = .error .noEntry ∨
      ∃ t', t.makeDirectory path = .ok t' ∧ Extends t' u := by
  obtain ⟨l, hl⟩ := isDirectory_iff.mp hu
  have hgoal : ∃ goal, u.follow path = .ok goal := by
    rcases directoryAt_eq_ok_iff.mp hl with hg | ⟨folder, name, slash, hg, -⟩
    · exact ⟨_, hg⟩
    · exact ⟨_, hg⟩
  obtain ⟨goal, hg⟩ := hgoal
  rcases h.follow hg with hsame | hmissing
  · rcases directoryAt_eq_ok_iff.mp hl with hd | ⟨folder, name, slash, hn, hdir, rfl⟩
    · left
      rw [hg] at hd
      rw [isDirectory_iff]
      exact ⟨l, directoryAt_eq_ok_iff.mpr (.inl (hsame.trans hd))⟩
    · rw [hg] at hn
      have hfollow := hsame.trans hn
      cases hentry : t.get? (folder ++ [name]) with
      | some e =>
          left
          rw [h _ e hentry] at hdir
          rw [isDirectory_iff]
          exact ⟨_, directoryAt_eq_ok_iff.mpr
            (.inr ⟨folder, name, slash, hfollow, hentry.trans hdir, rfl⟩)⟩
      | none =>
          right
          right
          have hsite := freeSite_eq_ok_iff.mpr ⟨folder, name, slash, hfollow, hentry, rfl⟩
          refine ⟨_, makeDirectory_eq_ok_iff.mpr ⟨_, hsite, rfl⟩, ?_⟩
          intro k e hk
          rw [get?_insert (by simp)] at hk
          split_ifs at hk with hkl
          · rw [hkl, hdir, hk]
          · exact h k e hk
  · right
    left
    unfold makeDirectory freeSite
    rw [hmissing]

theorem walk_of_isDirectory (h : t.isDirectory path = true) :
    ∃ l, t.walk [] (Path.names path) = .ok l := by
  obtain ⟨l, hl⟩ := isDirectory_iff.mp h
  exact ⟨l, (directoryAt_eq_ok_iff_walk.mp hl).2⟩

theorem makeDirectory_ne_noEntry {l : Location} (hpath : path ≠ "")
    (hl : t.walk [] (Path.names path).dropLast = .ok l) :
    t.makeDirectory path ≠ .error .noEntry := by
  have hfollow := follow_ne_noEntry hpath hl
  unfold makeDirectory freeSite
  cases hg : t.follow path with
  | error why =>
      rw [hg] at hfollow
      exact fun hwhy => hfollow (congrArg Except.error (Except.error.inj hwhy))
  | ok goal =>
      cases goal with
      | directory here => simp
      | name folder name slash => cases hentry : t.get? (folder ++ [name]) <;> simp [hentry]

/-- With nothing missing on its way, a directory of a larger tree will be there. -/
theorem ensureDirectory_below (h : Extends t u) (hu : u.isDirectory path = true)
    (hfound : t.makeDirectory path ≠ .error .noEntry) :
    ∃ t' l, t.ensureDirectory path = (.ok (), t') ∧ Extends t' u ∧
      t'.walk [] (Path.names path) = .ok l := by
  rcases makeDirectory_below h hu with hdir | hmissing | ⟨t', hmake, hbelow⟩
  · obtain ⟨l, hl⟩ := walk_of_isDirectory hdir
    exact ⟨t, l, ensureDirectory_of_isDirectory hdir, h, hl⟩
  · exact absurd hmissing hfound
  · obtain ⟨l, hl⟩ := walk_of_isDirectory (makeDirectory_adds hmake).2
    exact ⟨t', l, ensureDirectory_of_ok hmake, hbelow, hl⟩

/-- Directories that are all in a larger tree can be made one inside the other, and the larger tree
is still larger. -/
theorem makeNested_below {start : List Char} {reversed : List (List Char)}
    (hjoined : Path.Joined start reversed) (h : Extends t u)
    (hu : ∀ p ∈ Path.upwardFrom start reversed, u.isDirectory p = true) :
    ∃ t' l, makeNested (Path.upwardFrom start reversed) t = (.ok (), t') ∧ Extends t' u ∧
      t'.walk [] (Path.names (Path.ofReversed start reversed)) = .ok l := by
  induction reversed with
  | nil => exact ⟨t, [], rfl, h, walk_dots (Path.names_ofReversed_nil hjoined.start_mem) []⟩
  | cons c above ih =>
      have habove := hjoined.of_suffix (List.suffix_cons c above)
      have hnames := Path.names_ofReversed_cons hjoined
      cases hidle : Path.isIdle c with
      | true =>
          rw [Path.upwardFrom, if_pos hidle] at hu ⊢
          obtain ⟨t', l, hmade, hbelow, hwalk⟩ := ih habove hu
          refine ⟨t', l, hmade, hbelow, ?_⟩
          rw [hnames, walk_append_eq_ok_iff]
          refine ⟨l, hwalk, walk_dots ?_ l⟩
          have hdot : c = [] ∨ c = ['.'] := by simpa [Path.isIdle] using hidle
          rcases hdot with rfl | rfl <;> simp
      | false =>
          have hne : c ≠ [] := by
            rintro rfl
            exact absurd hidle (by decide)
          rw [if_neg hne] at hnames
          rw [Path.upwardFrom, if_neg (by simp [hidle])] at hu ⊢
          have hpath := hu (Path.ofReversed start (c :: above)) (by simp)
          by_cases hmissing : t.makeDirectory (Path.ofReversed start (c :: above)) = .error .noEntry
          · -- What is missing is above the directory, and made first.
            obtain ⟨t₁, l, hmade, hbelow, hwalk⟩ :=
              ih habove fun p hp => hu p (List.mem_cons_of_mem _ hp)
            rw [makeNested_of_noEntry hmissing hmade]
            apply ensureDirectory_below hbelow hpath
            apply makeDirectory_ne_noEntry (Path.ofReversed_ne_empty hjoined hne)
            rw [hnames, List.dropLast_concat]
            exact hwalk
          · rw [makeNested_of_ne _ hmissing]
            exact ensureDirectory_below h hpath hmissing

theorem makeDirectories_below (h : Extends t u) (hu : u.isDirectory path = true) :
    ∃ t', t.makeDirectories path = (.ok (), t') ∧ Extends t' u := by
  have hjoined := Path.joined_parts path.toList
  have hall : ∀ p ∈ Path.upward path, u.isDirectory p = true := fun p hp =>
    isDirectory_of_above (Path.ne_empty_of_mem_upwardFrom hjoined hp)
      (Path.above_of_mem_upward hp) hu
  obtain ⟨t', -, ht, hbelow, -⟩ := makeNested_below hjoined h hall
  exact ⟨t', ht, hbelow⟩

/-- The directory of a file can be made, with those above it, exactly if some way of making
directories leads to a tree that has it. -/
theorem makeDirectories_ok_iff (t : FileTree) (path : String) :
    (∃ t', t.makeDirectories (Path.directory path) = (.ok (), t')) ↔
      ∃ u, MakesDirectories t u ∧ u.isDirectory (Path.directory path) = true := by
  constructor
  · rintro ⟨t', ht⟩
    exact ⟨t', makeDirectories_makes ht, isDirectory_of_makeDirectories ht⟩
  · rintro ⟨u, hmakes, hdir⟩
    obtain ⟨t', ht, -⟩ := makeDirectories_below hmakes.extends hdir
    exact ⟨t', ht⟩

/-- A path at which a file can be put ends in a proper component, and all names before it can be
entered. -/
theorem exists_proper_of_follow {folder : Location} {name : String}
    (h : t.follow path = .ok (.name folder name false)) :
    Usable path ∧ t.walk [] (Path.names path).dropLast = .ok folder ∧
      ∃ c above, (Path.parts path.toList).components.reverse = c :: above ∧
        Path.isIdle c = false := by
  obtain ⟨husable, ⟨hdot, -, -⟩, hslash, before, hnames, hwalk⟩ := follow_eq_name_iff.mp h
  have hlast : (Path.names path).getLast? = some name := by rw [hnames, List.getLast?_concat]
  refine ⟨husable, ?_, Path.exists_proper (of_decide_eq_false hslash) hlast hdot⟩
  rw [hnames, List.dropLast_concat]
  exact hwalk

/-- To enter the directory of a file is to enter all names of its path but the last. -/
theorem walk_directory {c : List Char} {above : List (List Char)} {l : Location}
    (hpath : (Path.parts path.toList).components.reverse = c :: above)
    (hc : Path.isIdle c = false) :
    t.walk [] (Path.names path).dropLast = .ok l ↔
      t.walk [] (Path.names (Path.directory path)) = .ok l := by
  have hjoined := Path.joined_parts path.toList
  rw [hpath] at hjoined
  have hwhole := Path.ofReversed_parts path
  rw [hpath] at hwhole
  have hne : c ≠ [] := by
    rintro rfl
    exact absurd hc (by decide)
  have hnames := Path.names_ofReversed_cons hjoined
  rw [hwhole, if_neg hne] at hnames
  obtain ⟨dots, hdots, hkept⟩ :=
    Path.names_dropWhile_isIdle (hjoined.of_suffix (List.suffix_cons c above))
  rw [hnames, List.dropLast_concat, hkept, Path.directory_of_proper hpath hc,
    walk_append_eq_ok_iff]
  simp only [walk_dots hdots, Except.ok.injEq, exists_eq_right]
  split_ifs with hempty
  · rw [String.isEmpty_iff.mp hempty]
    rfl
  · rfl

theorem isDirectory_of_fileSite {l : Location} (h : t.fileSite path = .ok l) :
    t.isDirectory (Path.directory path) = true := by
  obtain ⟨folder, name, hfollow, -⟩ := fileSite_eq_ok_iff.mp h
  obtain ⟨husable, hwalk, c, above, hpath, hc⟩ := exists_proper_of_follow hfollow
  rw [walk_directory hpath hc] at hwalk
  rw [isDirectory_iff]
  refine ⟨folder, directoryAt_eq_ok_iff_walk.mpr ⟨?_, hwalk⟩⟩
  rcases Path.directory_upward path with hdot | hroot | ⟨more, hmore⟩
  · rw [hdot]
    exact usable_dot
  · rw [hroot]
    exact usable_root
  · have hmem : Path.directory path ∈ Path.upward (Path.directory path) := by simp [hmore]
    have hne := Path.ne_empty_of_mem_upwardFrom (Path.joined_parts _) hmem
    rcases Path.directory_cases path with hnone | ⟨rest, hrest⟩
    · simp [hnone] at hmore
    · exact husable.of_append hne hrest

/-- In a smaller tree that has the directory of a file, the file can be put in the same place. -/
theorem Extends.fileSite {l : Location} (h : Extends t u) (hl : u.fileSite path = .ok l)
    (hdir : t.isDirectory (Path.directory path) = true) : t.fileSite path = .ok l := by
  obtain ⟨folder, name, hfollow, hfree, rfl⟩ := fileSite_eq_ok_iff.mp hl
  obtain ⟨husable, -, c, above, hpath, hc⟩ := exists_proper_of_follow hfollow
  obtain ⟨m, hm⟩ := walk_of_isDirectory hdir
  have hfound := follow_ne_noEntry husable.ne_empty ((walk_directory hpath hc).mpr hm)
  rw [fileSite_eq_ok_iff]
  refine ⟨folder, name, (h.follow hfollow).resolve_right hfound, ?_, rfl⟩
  intro hentry
  exact hfree (h _ _ hentry)

/-- In a smaller tree that has the directory of a file, the file can be staged as well. -/
theorem Extends.admits {c : Circumstances} {content : ByteArray} (h : Extends t u)
    (hadmits : u.Admits c path content) (hdir : t.isDirectory (Path.directory path) = true) :
    t.Admits c path content := by
  obtain ⟨folder, hat⟩ := isDirectory_iff.mp hdir
  have hkeeps : KeepsDirectories t u := fun l hl => h l .directory hl
  refine ⟨hadmits.toGrants, hadmits.staged.below hat (hkeeps.directoryAt hat) ?_⟩
  intro n hfree
  by_contra htaken
  obtain ⟨e, he⟩ := Option.ne_none_iff_exists'.mp htaken
  simp [h _ e he] at hfree

end Making

/-- Saving succeeds exactly if some way of making directories leads to a tree in which the file can
be put, and nothing is in the way of a new file beside it. -/
theorem save_ok_iff (t : FileTree) (c : Circumstances) (path : String) (content : ByteArray) :
    (t.save c path content).1 = .ok () ↔
      ∃ u l, MakesDirectories t u ∧ u.fileSite path = .ok l ∧ u.Admits c path content := by
  constructor
  · intro h
    obtain ⟨t₁, l, hmake, hadmits, hl, -⟩ := save_eq_ok (Prod.ext h rfl)
    exact ⟨t₁, l, makeDirectories_makes hmake, hl, hadmits⟩
  · rintro ⟨u, l, hmakes, hl, hadmits⟩
    obtain ⟨t₁, hmake, hbelow⟩ := makeDirectories_below hmakes.extends (isDirectory_of_fileSite hl)
    have hdir := isDirectory_of_makeDirectories hmake
    rw [save_of_admits hmake (hbelow.admits hadmits hdir) (hbelow.fileSite hl hdir)]

theorem save_makeDirectory_iff (t : FileTree) (c : Circumstances) (path : String)
    (content : ByteArray) :
    (∃ why, (t.save c path content).1 = .error (.makeDirectory (Path.directory path) why)) ↔
      ¬ ∃ u, MakesDirectories t u ∧ u.isDirectory (Path.directory path) = true := by
  rw [← makeDirectories_ok_iff]
  rcases save_cases t c path content with
    ⟨why, t₁, hmake, hsave⟩ | ⟨why, t₁, hmake, -, hsave⟩ | ⟨t₁, l, hmake, -, -, hsave⟩
  · simp [hmake, hsave]
  · simp [hmake, hsave]
  · simp [hmake, hsave]

/-- A saved file has its text and the others are as before, or all are, whatever is refused on the
way. Only directories above the file are added and none is removed. Saving succeeds if there is any
way to put the file in its place and nothing is in the way of staging it; a failure is one of making
the directory exactly if it is not there and cannot be made, and one of writing else. -/
theorem save_all_or_nothing (t : FileTree) (c : Circumstances) (path text : String) :
    let dir := Path.directory path
    let t' := (t.save c path text.toUTF8).2
    (match (t.save c path text.toUTF8).1 with
      | .ok () => t'.read path = .ok text.toUTF8 ∧ t'.freshness path text = .ok .upToDate ∧
          ∃ l, t'.fileSite path = .ok l ∧ ∀ k, k ≠ l → t'.file? k = t.file? k
      | .error fault => (∀ k, t'.file? k = t.file? k) ∧
          ((∃ why, fault = .makeDirectory dir why) ∨ ∃ why, fault = .write path why)) ∧
      ((t.save c path text.toUTF8).1 = .ok () ↔
        ∃ u l, MakesDirectories t u ∧ u.fileSite path = .ok l ∧ u.Admits c path text.toUTF8) ∧
      ((∃ why, (t.save c path text.toUTF8).1 = .error (.makeDirectory dir why)) ↔
        ¬ ∃ u, MakesDirectories t u ∧ u.isDirectory dir = true) ∧
      KeepsDirectories t t' ∧
      ∀ k, t.get? k ≠ some .directory → t'.get? k = some .directory →
        ∃ p, Path.Above p dir ∧ t'.directoryAt p = .ok k := by
  have hok := save_ok_iff t c path text.toUTF8
  have hmake := save_makeDirectory_iff t c path text.toUTF8
  rcases hsave : t.save c path text.toUTF8 with ⟨result, t'⟩
  rw [hsave] at hok hmake
  dsimp only at hok hmake ⊢
  cases result with
  | ok u =>
      obtain ⟨l, hputs⟩ := save_puts hsave
      refine ⟨⟨hputs.read, ?_, l, hputs.site, hputs.others⟩, hok, hmake, hputs.kept, hputs.added⟩
      rw [freshness, readText_of_read hputs.read]
      simp [Freshness.judge]
  | error fault =>
      have hadds := save_fails hsave
      refine ⟨⟨hadds.file?, (save_eq_error hsave).2⟩, hok, hmake, hadds.keepsDirectories, ?_⟩
      intro k hold hnew
      obtain ⟨p, hp, hat⟩ := hadds.exists_way hold hnew
      exact ⟨p, Path.above_of_mem_upward hp, hat⟩

/-- A file cannot be saved if its directory has a path of nearly the greatest length. -/
theorem save_ne_ok_of_long {t : FileTree} {c : Circumstances} {path : String}
    {content : ByteArray} (hslash : (Path.directory path).toList.getLast? ≠ some '/')
    (hlong : maxPathBytes < (Path.directory path).utf8ByteSize + 11) :
    (t.save c path content).1 ≠ .ok () := by
  intro h
  obtain ⟨t₁, l, hmake, hadmits, -, -⟩ := save_eq_ok (Prod.ext h rfl)
  obtain ⟨folder, hat⟩ := isDirectory_iff.mp (isDirectory_of_makeDirectories hmake)
  have husable := (directoryAt_eq_ok_iff_walk.mp hat).1
  exact not_canStage_of_long husable.ne_empty hslash hlong hadmits.staged

end TaggedUnion.FileTree

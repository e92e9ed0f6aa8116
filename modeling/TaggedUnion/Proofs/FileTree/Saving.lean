import TaggedUnion.FileTree.Saving
import TaggedUnion.Proofs.FileTree.Entries

/-!
# What saving a file changes

Making directories adds directories where the paths lead and leaves everything else as it was. A new
file is made at a free name, so with it gone the tree is the one before. Whatever is refused on the
way, saving is therefore to make directories and then to put the file in its place, or to fail
before that.

Programs over files are run on trees step by step: `run_bind` passes from one step to the next.
-/

namespace TaggedUnion.FileTree

/-- Nothing but directories is added, and each of them where one of some paths leads. -/
structure AddsDirectories (way : String → Prop) (t t' : FileTree) : Prop where
  kept : ∀ l e, t.get? l = some e → t'.get? l = some e
  added : ∀ l e, t.get? l = none → t'.get? l = some e →
    e = .directory ∧ ∃ p, way p ∧ t'.directoryAt p = .ok l

namespace AddsDirectories
variable {way wider : String → Prop} {t t' t'' : FileTree}

theorem refl (way : String → Prop) (t : FileTree) : AddsDirectories way t t where
  kept _ _ h := h
  added l e hnone hsome := by simp [hnone] at hsome

theorem keepsDirectories (h : AddsDirectories way t t') : KeepsDirectories t t' :=
  fun l hl => h.kept l .directory hl

theorem trans (h : AddsDirectories way t t') (h' : AddsDirectories way t' t'') :
    AddsDirectories way t t'' where
  kept l e hl := h'.kept l e (h.kept l e hl)
  added l e hnone hsome := by
    cases hmid : t'.get? l with
    | none => exact h'.added l e hmid hsome
    | some e' =>
        obtain ⟨rfl, p, hp, hat⟩ := h.added l e' hnone hmid
        have hstay := h'.kept l .directory hmid
        rw [hsome] at hstay
        exact ⟨Option.some.inj hstay, p, hp, h'.keepsDirectories.directoryAt hat⟩

theorem mono (h : AddsDirectories way t t') (hway : ∀ p, way p → wider p) :
    AddsDirectories wider t t' where
  kept := h.kept
  added l e hnone hsome := by
    obtain ⟨he, p, hp, hat⟩ := h.added l e hnone hsome
    exact ⟨he, p, hway p hp, hat⟩

/-- No file is added, changed or removed. -/
theorem file? (h : AddsDirectories way t t') (l : Location) : t'.file? l = t.file? l := by
  cases hold : t.get? l with
  | some e => exact file?_congr (by rw [hold, h.kept l e hold])
  | none =>
      cases hnew : t'.get? l with
      | none => exact file?_congr (by rw [hold, hnew])
      | some e =>
          obtain ⟨rfl, -⟩ := h.added l e hold hnew
          rw [FileTree.file?, FileTree.file?, hold, hnew]

/-- A directory that was not there has been added. -/
theorem exists_way (h : AddsDirectories way t t') {l : Location}
    (hold : t.get? l ≠ some .directory) (hnew : t'.get? l = some .directory) :
    ∃ p, way p ∧ t'.directoryAt p = .ok l := by
  cases hentry : t.get? l with
  | none => exact (h.added l _ hentry hnew).2
  | some e =>
      have hkept := h.kept l e hentry
      rw [hnew] at hkept
      rw [hentry, hkept] at hold
      exact absurd rfl hold

end AddsDirectories

section Running
variable {t t' : FileTree} {why : Refusal}

theorem run_bind {α β : Type} {x : StateM FileTree α} {f : α → StateM FileTree β} {a : α}
    (h : x.run t = (a, t')) : (x >>= f).run t = (f a).run t' := by
  rw [StateT.run_bind, h]
  rfl

theorem run_change_ok {f : FileTree → Except Refusal FileTree} (h : f t = .ok t') :
    (change f).run t = (.ok (), t') := by
  simp only [change, StateT.run_modifyGet, h]
  rfl

theorem run_change_error {f : FileTree → Except Refusal FileTree} (h : f t = .error why) :
    (change f).run t = (.error why, t) := by
  simp only [change, StateT.run_modifyGet, h]
  rfl

end Running

section MakingDirectories
variable {t t' : FileTree} {path : String} {why : Refusal}

theorem makeDirectory_eq_ok_iff :
    t.makeDirectory path = .ok t' ↔
      ∃ l, t.freeSite path = .ok l ∧ t.insert l .directory = t' := by
  unfold makeDirectory
  cases t.freeSite path <;> simp

theorem isDirectory_iff : t.isDirectory path = true ↔ ∃ l, t.directoryAt path = .ok l := by
  unfold isDirectory
  cases t.directoryAt path <;> simp [Except.toBool]

theorem KeepsDirectories.isDirectory (h : KeepsDirectories t t')
    (hpath : t.isDirectory path = true) : t'.isDirectory path = true := by
  rw [isDirectory_iff] at hpath ⊢
  obtain ⟨l, hl⟩ := hpath
  exact ⟨l, h.directoryAt hl⟩

theorem makeDirectory_adds (h : t.makeDirectory path = .ok t') :
    AddsDirectories (· = path) t t' ∧ t'.isDirectory path = true := by
  obtain ⟨l, hl, rfl⟩ := makeDirectory_eq_ok_iff.mp h
  obtain ⟨folder, name, slash, hfollow, hfree, rfl⟩ := freeSite_eq_ok_iff.mp hl
  have hkept : ∀ k e, t.get? k = some e →
      (t.insert (folder ++ [name]) .directory).get? k = some e := by
    intro k e hk
    rw [get?_insert_of_ne (by simp) _]
    · exact hk
    · rintro rfl
      simp [hfree] at hk
  have hat : (t.insert (folder ++ [name]) .directory).directoryAt path =
      .ok (folder ++ [name]) := by
    have hkeeps : KeepsDirectories t (t.insert (folder ++ [name]) .directory) :=
      fun k hk => hkept k .directory hk
    rw [directoryAt_eq_ok_iff]
    exact .inr ⟨folder, name, slash, hkeeps.follow hfollow, get?_insert_self (by simp) _ _, rfl⟩
  refine ⟨⟨hkept, ?_⟩, isDirectory_iff.mpr ⟨_, hat⟩⟩
  intro k e hnone hsome
  rw [get?_insert (by simp)] at hsome
  split_ifs at hsome with hk
  · subst hk
    exact ⟨(Option.some.inj hsome).symm, path, rfl, hat⟩
  · simp [hnone] at hsome

/-- A directory that is there cannot be made, for no other reason than that it is there. -/
theorem makeDirectory_of_isDirectory (h : t.isDirectory path = true) :
    t.makeDirectory path = .error .alreadyExists := by
  obtain ⟨l, hl⟩ := isDirectory_iff.mp h
  unfold makeDirectory freeSite
  rcases directoryAt_eq_ok_iff.mp hl with hfollow | ⟨folder, name, slash, hfollow, hdir, -⟩
  · simp [hfollow]
  · simp [hfollow, hdir]

def ensureDirectory (t : FileTree) (path : String) : Except Refusal Unit × FileTree :=
  (directories.ensure path).run t

theorem ensureDirectory_of_ok (h : t.makeDirectory path = .ok t') :
    t.ensureDirectory path = (.ok (), t') :=
  run_bind (run_change_ok h)

theorem ensureDirectory_of_error (h : t.makeDirectory path = .error why) :
    t.ensureDirectory path = (if t.isDirectory path then .ok () else .error why, t) :=
  run_bind (run_change_error h)

theorem ensureDirectory_adds (t : FileTree) (path : String) :
    AddsDirectories (· = path) t (t.ensureDirectory path).2 := by
  cases hmake : t.makeDirectory path with
  | ok t' =>
      rw [ensureDirectory_of_ok hmake]
      exact (makeDirectory_adds hmake).1
  | error why =>
      rw [ensureDirectory_of_error hmake]
      exact .refl _ t

theorem isDirectory_of_ensureDirectory (h : t.ensureDirectory path = (.ok (), t')) :
    t'.isDirectory path = true := by
  cases hmake : t.makeDirectory path with
  | ok t₁ =>
      rw [ensureDirectory_of_ok hmake] at h
      rw [← (Prod.mk.inj h).2]
      exact (makeDirectory_adds hmake).2
  | error why =>
      rw [ensureDirectory_of_error hmake] at h
      split_ifs at h with hdir
      · rw [← (Prod.mk.inj h).2]
        exact hdir
      · simp at h

def makeNested (paths : List String) (t : FileTree) : Except Refusal Unit × FileTree :=
  (directories.makeNested paths).run t

section Nested
variable {above : List String}

theorem makeNested_of_ne (above : List String) (h : t.makeDirectory path ≠ .error .noEntry) :
    makeNested (path :: above) t = t.ensureDirectory path := by
  cases hmake : t.makeDirectory path with
  | ok t' => exact (run_bind (run_change_ok hmake)).trans (ensureDirectory_of_ok hmake).symm
  | error why =>
      rw [ensureDirectory_of_error hmake]
      refine (run_bind (run_change_error hmake)).trans ?_
      cases why with
      | noEntry => exact absurd hmake h
      | _ => rfl

theorem makeNested_of_noEntry (h : t.makeDirectory path = .error .noEntry)
    (habove : makeNested above t = (.ok (), t')) :
    makeNested (path :: above) t = t'.ensureDirectory path :=
  (run_bind (run_change_error h)).trans (run_bind habove)

theorem makeNested_of_noEntry_error (h : t.makeDirectory path = .error .noEntry)
    (habove : makeNested above t = (.error why, t')) :
    makeNested (path :: above) t = (.error why, t') :=
  (run_bind (run_change_error h)).trans (run_bind habove)

/-- A nested directory is made at once, or after those above it unless they fail. -/
theorem makeNested_cons_cases (path : String) (above : List String) (t : FileTree) :
    makeNested (path :: above) t = t.ensureDirectory path ∨
      (∃ why t₁, makeNested above t = (.error why, t₁) ∧
        makeNested (path :: above) t = (.error why, t₁)) ∨
      ∃ t₁, makeNested above t = (.ok (), t₁) ∧
        makeNested (path :: above) t = t₁.ensureDirectory path := by
  by_cases hmissing : t.makeDirectory path = .error .noEntry
  · rcases habove : makeNested above t with ⟨why | _, t₁⟩
    · exact .inr (.inl ⟨why, t₁, rfl, makeNested_of_noEntry_error hmissing habove⟩)
    · exact .inr (.inr ⟨t₁, rfl, makeNested_of_noEntry hmissing habove⟩)
  · exact .inl (makeNested_of_ne above hmissing)

/-- Only directories on the way are made, also if making them fails. -/
theorem makeNested_adds (paths : List String) (t : FileTree) :
    AddsDirectories (· ∈ paths) t (makeNested paths t).2 := by
  induction paths with
  | nil => exact .refl _ t
  | cons path above ih =>
      have hpath (p : String) (hp : p = path) : p ∈ path :: above := by simp [hp]
      have habove (p : String) (hp : p ∈ above) : p ∈ path :: above := by simp [hp]
      rcases makeNested_cons_cases path above t with h | ⟨why, t₁, hmade, h⟩ | ⟨t₁, hmade, h⟩
      · rw [h]
        exact (ensureDirectory_adds t path).mono hpath
      · rw [h]
        rw [hmade] at ih
        exact ih.mono habove
      · rw [h]
        rw [hmade] at ih
        exact (ih.mono habove).trans ((ensureDirectory_adds t₁ path).mono hpath)

theorem isDirectory_of_makeNested (h : makeNested (path :: above) t = (.ok (), t')) :
    t'.isDirectory path = true := by
  rcases makeNested_cons_cases path above t with h' | ⟨why, t₁, -, h'⟩ | ⟨t₁, -, h'⟩
  · exact isDirectory_of_ensureDirectory (h'.symm.trans h)
  · simp [h] at h'
  · exact isDirectory_of_ensureDirectory (h'.symm.trans h)

/-- Directories that were made are not made again, whatever has been put into the tree since. -/
theorem makeNested_again {paths : List String} {t'' : FileTree}
    (h : makeNested paths t = (.ok (), t')) (hkeeps : KeepsDirectories t' t'') :
    makeNested paths t'' = (.ok (), t'') := by
  cases paths with
  | nil => rfl
  | cons path above =>
      have hdir := hkeeps.isDirectory (isDirectory_of_makeNested h)
      have hmake := makeDirectory_of_isDirectory hdir
      rw [makeNested_of_ne above (by simp [hmake]), ensureDirectory_of_error hmake, if_pos hdir]

end Nested

theorem isDirectory_of_dots (hpath : Usable path) (h : ∀ name ∈ Path.names path, name = ".") :
    t.isDirectory path = true :=
  isDirectory_iff.mpr ⟨[], directoryAt_eq_ok_iff_walk.mpr ⟨hpath, walk_dots h []⟩⟩

theorem isDirectory_of_makeDirectories
    (h : t.makeDirectories (Path.directory path) = (.ok (), t')) :
    t'.isDirectory (Path.directory path) = true := by
  rcases Path.directory_upward path with hdot | hroot | ⟨above, habove⟩
  · rw [hdot]
    exact isDirectory_of_dots usable_dot (by decide)
  · rw [hroot]
    exact isDirectory_of_dots usable_root (by decide)
  · rw [makeDirectories, habove] at h
    exact isDirectory_of_makeNested h

theorem makeDirectories_adds (t : FileTree) (path : String) :
    AddsDirectories (· ∈ Path.upward path) t (t.makeDirectories path).2 :=
  makeNested_adds (Path.upward path) t

end MakingDirectories

section Naming

theorem tempLetter_spec {k : Nat} (h : k < 62) :
    tempLetter k ≠ '/' ∧ (tempLetter k).utf8Size = 1 := by
  revert k
  decide

theorem slash_notMem_tempLetters (n count : Nat) : '/' ∉ tempLetters n count := by
  induction count generalizing n with
  | zero => simp [tempLetters]
  | succ count ih =>
      have hletter := (tempLetter_spec (Nat.mod_lt n (by decide : 0 < 62))).1
      simp [tempLetters, ih, hletter.symm]

theorem utf8ByteSize_tempLetters (n count : Nat) :
    (String.ofList (tempLetters n count)).utf8ByteSize = count := by
  induction count generalizing n with
  | zero => rfl
  | succ count ih =>
      have hletter := (tempLetter_spec (Nat.mod_lt n (by decide : 0 < 62))).2
      rw [tempLetters, String.ofList_cons, String.utf8ByteSize_append,
        String.utf8ByteSize_singleton, hletter, ih]
      omega

theorem toList_tempName (n : Nat) :
    (tempName n).toList = '.' :: 't' :: 'm' :: 'p' :: tempLetters n 6 := by
  simp [tempName]

theorem isName_tempName (n : Nat) : Path.IsName (tempName n) := by
  have hlist := toList_tempName n
  refine ⟨?_, ?_, ?_, ?_⟩
  · intro h
    simp [h] at hlist
  · rw [hlist]
    simp [slash_notMem_tempLetters]
  · intro h
    simp [h] at hlist
  · intro h
    simp [h] at hlist

theorem utf8ByteSize_tempName (n : Nat) : (tempName n).utf8ByteSize = 10 := by
  rw [tempName, String.utf8ByteSize_append, utf8ByteSize_tempLetters]
  rfl

end Naming

section Staging
variable {t u : FileTree} {c : Circumstances} {dir path staged : String} {content : ByteArray}
  {folder l : Location} {why : Refusal}

/-- The path of the new file that is tried with so many tries left. -/
def Circumstances.tried (c : Circumstances) (dir : String) (left : Nat) : String :=
  Path.join dir (tempName (c.draw left))

/-- Of the names that are tried for a new file one can be used, and those before it are taken. -/
def CanStage (t : FileTree) (c : Circumstances) (dir : String) (left : Nat) : Prop :=
  ∃ k < left, (∃ l, t.newSite c (c.tried dir k) = .ok l) ∧
    ∀ j, k < j → j < left → t.newSite c (c.tried dir j) = .error .alreadyExists

theorem not_canStage_zero : ¬ t.CanStage c dir 0 := by
  rintro ⟨k, hk, -⟩
  omega

theorem canStage_succ {left : Nat} :
    t.CanStage c dir (left + 1) ↔ (∃ l, t.newSite c (c.tried dir left) = .ok l) ∨
      (t.newSite c (c.tried dir left) = .error .alreadyExists ∧ t.CanStage c dir left) := by
  constructor
  · rintro ⟨k, hk, hsite, htaken⟩
    rcases Nat.lt_succ_iff_lt_or_eq.mp hk with hlt | rfl
    · refine .inr ⟨htaken left hlt (by omega), k, hlt, hsite, ?_⟩
      exact fun j hkj hj => htaken j hkj (by omega)
    · exact .inl hsite
  · rintro (hsite | ⟨htaken, k, hk, hsite, hbefore⟩)
    · exact ⟨left, by omega, hsite, fun j hkj hj => by omega⟩
    · refine ⟨k, by omega, hsite, fun j hkj hj => ?_⟩
      rcases Nat.lt_succ_iff_lt_or_eq.mp hj with hlt | rfl
      · exact hbefore j hkj hlt
      · exact htaken

theorem freeSite_of_newSite (h : t.newSite c path = .ok l) : t.freeSite path = .ok l := by
  unfold newSite at h
  cases hrefuses : c.refuses (.create path) with
  | some why => simp [hrefuses] at h
  | none =>
      rw [hrefuses] at h
      exact h

/-- In a tree where no more names are taken, a new file has the same place or is made sooner. -/
theorem newSite_below (ht : t.directoryAt dir = .ok folder) (hu : u.directoryAt dir = .ok folder)
    {n : Nat} (hfree : u.get? (folder ++ [tempName n]) = none →
      t.get? (folder ++ [tempName n]) = none) :
    t.newSite c (Path.join dir (tempName n)) = u.newSite c (Path.join dir (tempName n)) ∨
      ∃ l, t.newSite c (Path.join dir (tempName n)) = .ok l := by
  unfold newSite
  cases c.refuses (.create (Path.join dir (tempName n))) with
  | some why => exact .inl rfl
  | none =>
      dsimp only
      by_cases husable : Usable (Path.join dir (tempName n))
      · have hname := isName_tempName n
        have hshort : (tempName n).utf8ByteSize ≤ maxNameBytes := by
          rw [utf8ByteSize_tempName]
          decide
        rw [freeSite_join hname hshort husable ht, freeSite_join hname hshort husable hu]
        cases htaken : t.get? (folder ++ [tempName n]) with
        | none => exact .inr ⟨_, rfl⟩
        | some e =>
            cases hbefore : u.get? (folder ++ [tempName n]) with
            | none => simp [hfree hbefore] at htaken
            | some e' => exact .inl rfl
      · obtain ⟨why, hwhy⟩ := exists_freeSite_error husable
        exact .inl ((hwhy t).trans (hwhy u).symm)

theorem CanStage.below {left : Nat} (h : u.CanStage c dir left)
    (ht : t.directoryAt dir = .ok folder) (hu : u.directoryAt dir = .ok folder)
    (hfree : ∀ n, u.get? (folder ++ [tempName n]) = none →
      t.get? (folder ++ [tempName n]) = none) : t.CanStage c dir left := by
  induction left with
  | zero => exact absurd h not_canStage_zero
  | succ left ih =>
      rw [canStage_succ] at h ⊢
      rcases newSite_below (c := c) ht hu (hfree (c.draw left)) with hsame | hsite
      · rw [Circumstances.tried, hsame]
        exact h.imp_right fun hnext => ⟨hnext.1, ih hnext.2⟩
      · exact .inl hsite

/-- The path of a new file has eleven bytes more than that of its directory, which may be too
many. -/
theorem not_canStage_of_long {left : Nat} (hdir : dir ≠ "")
    (hslash : dir.toList.getLast? ≠ some '/') (hlong : maxPathBytes < dir.utf8ByteSize + 11) :
    ¬ t.CanStage c dir left := by
  rintro ⟨k, -, ⟨l, hl⟩, -⟩
  have hpath := (isName_tempName (c.draw k)).join_eq hdir
  rw [if_neg hslash] at hpath
  have hsize : (c.tried dir k).utf8ByteSize = dir.utf8ByteSize + 1 + 10 := by
    rw [Circumstances.tried, hpath, String.utf8ByteSize_append, String.utf8ByteSize_append,
      utf8ByteSize_tempName]
    rfl
  obtain ⟨here, name, slash, hfollow, -⟩ := freeSite_eq_ok_iff.mp (freeSite_of_newSite hl)
  have hshort := (Usable.of_follow hfollow).length_le
  omega

theorem run_create_ok (h : t.newSite c path = .ok l) :
    ((system c).create path).run t = (.ok l, t.insert l (.file .empty)) := by
  simp only [system, StateT.run_modifyGet, h]
  rfl

theorem run_create_error (h : t.newSite c path = .error why) :
    ((system c).create path).run t = (.error why, t) := by
  simp only [system, StateT.run_modifyGet, h]
  rfl

theorem run_draw (t : FileTree) (c : Circumstances) (left : Nat) :
    ((system c).draw left).run t = (c.draw left, t) :=
  rfl

theorem run_stage_of_ok {left : Nat} (h : t.newSite c (c.tried dir left) = .ok l) :
    ((system c).stage dir (left + 1)).run t =
      (.ok (c.tried dir left, l), t.insert l (.file .empty)) :=
  (run_bind (run_draw t c left)).trans (run_bind (run_create_ok h))

theorem run_stage_of_taken {left : Nat}
    (h : t.newSite c (c.tried dir left) = .error .alreadyExists) :
    ((system c).stage dir (left + 1)).run t = ((system c).stage dir left).run t :=
  (run_bind (run_draw t c left)).trans (run_bind (run_create_error h))

theorem run_stage_of_error {left : Nat} (h : t.newSite c (c.tried dir left) = .error why)
    (hwhy : why ≠ .alreadyExists) :
    ((system c).stage dir (left + 1)).run t = (.error (.about (c.tried dir left) why), t) := by
  refine (run_bind (run_draw t c left)).trans ((run_bind (run_create_error h)).trans ?_)
  cases why with
  | alreadyExists => exact absurd rfl hwhy
  | _ => rfl

theorem get?_of_newSite (h : t.newSite c path = .ok l) : t.get? l = none := by
  obtain ⟨folder, name, slash, -, hfree, rfl⟩ := freeSite_eq_ok_iff.mp (freeSite_of_newSite h)
  exact hfree

/-- A new file is made at a location that is free, or the tree is as before. -/
theorem run_stage_cases (t : FileTree) (c : Circumstances) (dir : String) (left : Nat) :
    (¬ t.CanStage c dir left ∧ ∃ why, ((system c).stage dir left).run t = (.error why, t)) ∨
      (t.CanStage c dir left ∧ ∃ staged l, t.get? l = none ∧
        ((system c).stage dir left).run t =
          (.ok (staged, l), t.insert l (.file .empty))) := by
  induction left with
  | zero => exact .inl ⟨not_canStage_zero, _, rfl⟩
  | succ left ih =>
      rw [canStage_succ]
      cases hsite : t.newSite c (c.tried dir left) with
      | ok l => exact .inr ⟨.inl ⟨l, rfl⟩, _, l, get?_of_newSite hsite, run_stage_of_ok hsite⟩
      | error why =>
          by_cases htaken : why = .alreadyExists
          · subst htaken
            rw [run_stage_of_taken hsite]
            simpa using ih
          · exact .inl ⟨by simp [htaken], _, run_stage_of_error hsite htaken⟩

/-- No operation on the new file is refused. -/
structure Circumstances.Grants (c : Circumstances) (path : String) (content : ByteArray) :
    Prop where
  write : c.refuses (.write content) = none
  flush : c.refuses .flush = none
  rename : c.refuses (.rename path) = none

theorem run_write_ok (h : c.refuses (.write content) = none) (t : FileTree) (l : Location) :
    ((system c).write l content).run t = (.ok (), t.insert l (.file content)) := by
  simp only [system, StateT.run_modifyGet, h]
  rfl

theorem run_write_error (h : c.refuses (.write content) = some why) (t : FileTree)
    (l : Location) : ((system c).write l content).run t =
      (.error why, t.insert l (.file (content.extract 0 c.room))) := by
  simp only [system, StateT.run_modifyGet, h]
  rfl

theorem run_flush_ok (h : c.refuses .flush = none) (t : FileTree) (l : Location) :
    ((system c).flush l).run t = (.ok (), t) := by
  simp only [system, h]
  rfl

theorem run_flush_error (h : c.refuses .flush = some why) (t : FileTree) (l : Location) :
    ((system c).flush l).run t = (.error why, t) := by
  simp only [system, h]
  rfl

theorem run_rename_of_refuses (h : c.refuses (.rename path) = some why) (t : FileTree)
    (l : Location) : ((system c).rename l path).run t = (.error why, t) := by
  simp only [system, h]
  rfl

theorem run_rename (h : c.refuses (.rename path) = none) (t : FileTree) (l : Location) :
    ((system c).rename l path).run t = (change (·.rename l path)).run t := by
  simp only [system, h]

theorem ne_nil_of_get? (hl : t.get? l = none) : l ≠ [] := by
  intro hroot
  simp [hroot] at hl

/-- Moving a new file, it goes to the place that its path had without it. -/
theorem rename_insert (hl : t.get? l = none) (e : Entry) {k : Location}
    (hk : t.fileSite path = .ok k) : (t.insert l e).rename l path = .ok (t.insert k e) := by
  rw [rename, get?_insert_self (ne_nil_of_get? hl)]
  dsimp only
  rw [erase_insert hl, hk]

theorem exists_rename_error (hl : t.get? l = none) (e : Entry)
    (h : t.fileSite path = .error why) :
    ∃ why', (t.insert l e).rename l path = .error why' := by
  rw [rename, get?_insert_self (ne_nil_of_get? hl)]
  dsimp only
  rw [erase_insert hl, h]
  cases why <;> exact ⟨_, rfl⟩

/-- A new file is filled and gets its place if no operation on it is refused. -/
theorem run_fill_ok (hl : t.get? l = none) (hc : c.Grants path content) {k : Location}
    (hk : t.fileSite path = .ok k) :
    ((system c).fill staged l path content).run (t.insert l (.file .empty)) =
      (.ok (), t.insert k (.file content)) := by
  refine (run_bind (run_write_ok hc.write _ l)).trans ?_
  rw [insert_insert]
  refine (run_bind (run_flush_ok hc.flush _ l)).trans ?_
  refine (run_rename hc.rename _ l).trans (run_change_ok ?_)
  exact rename_insert hl _ hk

/-- Otherwise it is still where it was made, whatever it holds. -/
theorem run_fill_error (staged : String) (hl : t.get? l = none)
    (h : ¬ (c.Grants path content ∧ ∃ k, t.fileSite path = .ok k)) :
    ∃ why e, ((system c).fill staged l path content).run (t.insert l (.file .empty)) =
      (.error why, t.insert l e) := by
  cases hwrite : c.refuses (.write content) with
  | some why =>
      have hwritten := run_write_error hwrite (t.insert l (.file .empty)) l
      rw [insert_insert] at hwritten
      exact ⟨.about staged why, _, run_bind hwritten⟩
  | none =>
      have hwritten := run_write_ok hwrite (t.insert l (.file .empty)) l
      rw [insert_insert] at hwritten
      cases hflush : c.refuses .flush with
      | some why =>
          refine ⟨.about staged why, .file content, (run_bind hwritten).trans ?_⟩
          exact run_bind (run_flush_error hflush _ l)
      | none =>
          have hflushed := run_flush_ok hflush (t.insert l (.file content)) l
          cases hrename : c.refuses (.rename path) with
          | some why =>
              refine ⟨why, .file content, (run_bind hwritten).trans ?_⟩
              exact (run_bind hflushed).trans (run_rename_of_refuses hrename _ l)
          | none =>
              cases hsite : t.fileSite path with
              | ok k => exact absurd ⟨⟨hwrite, hflush, hrename⟩, k, hsite⟩ h
              | error why =>
                  obtain ⟨why', hwhy⟩ := exists_rename_error hl (.file content) hsite
                  refine ⟨why', .file content, (run_bind hwritten).trans ?_⟩
                  refine (run_bind hflushed).trans ?_
                  exact (run_rename hrename _ l).trans (run_change_error hwhy)

end Staging

section Saving
variable {t t' t₁ : FileTree} {c : Circumstances} {path : String} {content : ByteArray}

/-- A new file can be made beside a path, and no operation on it is refused. -/
structure Admits (t : FileTree) (c : Circumstances) (path : String) (content : ByteArray) : Prop
    extends c.Grants path content where
  staged : t.CanStage c (Path.directory path) maxTries

theorem save_of_makeDirectories_error {why : Refusal}
    (h : t.makeDirectories (Path.directory path) = (.error why, t₁)) :
    t.save c path content = (.error (.makeDirectory (Path.directory path) why), t₁) :=
  run_bind h

/-- With its directory made, a file is put in its place. -/
theorem save_of_admits (h : t.makeDirectories (Path.directory path) = (.ok (), t₁))
    (hadmits : t₁.Admits c path content) {l : Location} (hl : t₁.fileSite path = .ok l) :
    t.save c path content = (.ok (), t₁.insert l (.file content)) := by
  rcases run_stage_cases t₁ c (Path.directory path) maxTries with
    ⟨hnot, -⟩ | ⟨-, staged, k, hk, hstage⟩
  · exact absurd hadmits.staged hnot
  · refine ((run_bind h).trans (run_bind hstage)).trans ?_
    exact run_bind (run_fill_ok hk hadmits.toGrants hl)

/-- Otherwise nothing but the directory is made: a new file that is there is removed. -/
theorem save_of_not_admits (h : t.makeDirectories (Path.directory path) = (.ok (), t₁))
    (hnot : ¬ (t₁.Admits c path content ∧ ∃ l, t₁.fileSite path = .ok l)) :
    ∃ why, t.save c path content = (.error (.write path why), t₁) := by
  rcases run_stage_cases t₁ c (Path.directory path) maxTries with
    ⟨-, why, hstage⟩ | ⟨hstaged, staged, k, hk, hstage⟩
  · exact ⟨why, (run_bind h).trans (run_bind hstage)⟩
  · have hrefused : ¬ (c.Grants path content ∧ ∃ l, t₁.fileSite path = .ok l) :=
      fun hall => hnot ⟨⟨hall.1, hstaged⟩, hall.2⟩
    obtain ⟨why, e, hfill⟩ := run_fill_error staged hk hrefused
    have hremove : ((system c).remove k).run (t₁.insert k e) = ((), t₁) := by
      have herase := erase_insert hk e
      simp only [system, StateT.run_modify, herase]
      rfl
    refine ⟨why, ((run_bind h).trans (run_bind hstage)).trans ?_⟩
    exact (run_bind hfill).trans (run_bind hremove)

/-- Saving ends in one of three ways. -/
theorem save_cases (t : FileTree) (c : Circumstances) (path : String) (content : ByteArray) :
    (∃ why t₁, t.makeDirectories (Path.directory path) = (.error why, t₁) ∧
      t.save c path content = (.error (.makeDirectory (Path.directory path) why), t₁)) ∨
    (∃ why t₁, t.makeDirectories (Path.directory path) = (.ok (), t₁) ∧
      ¬ (t₁.Admits c path content ∧ ∃ l, t₁.fileSite path = .ok l) ∧
        t.save c path content = (.error (.write path why), t₁)) ∨
    ∃ t₁ l, t.makeDirectories (Path.directory path) = (.ok (), t₁) ∧
      t₁.Admits c path content ∧ t₁.fileSite path = .ok l ∧
        t.save c path content = (.ok (), t₁.insert l (.file content)) := by
  rcases hmake : t.makeDirectories (Path.directory path) with ⟨why | _, t₁⟩
  · exact .inl ⟨why, t₁, rfl, save_of_makeDirectories_error hmake⟩
  · by_cases h : t₁.Admits c path content ∧ ∃ l, t₁.fileSite path = .ok l
    · obtain ⟨hadmits, l, hl⟩ := h
      exact .inr (.inr ⟨t₁, l, rfl, hadmits, hl, save_of_admits hmake hadmits hl⟩)
    · obtain ⟨why, hsave⟩ := save_of_not_admits hmake h
      exact .inr (.inl ⟨why, t₁, rfl, h, hsave⟩)

theorem save_eq_ok (h : t.save c path content = (.ok (), t')) :
    ∃ t₁ l, t.makeDirectories (Path.directory path) = (.ok (), t₁) ∧
      t₁.Admits c path content ∧ t₁.fileSite path = .ok l ∧
        t' = t₁.insert l (.file content) := by
  rcases save_cases t c path content with
    ⟨why, t₁, -, h'⟩ | ⟨why, t₁, -, -, h'⟩ | ⟨t₁, l, hmake, hadmits, hl, h'⟩
  · simp [h] at h'
  · simp [h] at h'
  · exact ⟨t₁, l, hmake, hadmits, hl, (Prod.mk.inj (h.symm.trans h')).2⟩

/-- A failure is one of making the directory or of writing the file, and leaves no more than the
directories that were made. -/
theorem save_eq_error {fault : FileFault} (h : t.save c path content = (.error fault, t')) :
    t' = (t.makeDirectories (Path.directory path)).2 ∧
      ((∃ why, fault = .makeDirectory (Path.directory path) why) ∨
        ∃ why, fault = .write path why) := by
  rcases save_cases t c path content with
    ⟨why, t₁, hmake, h'⟩ | ⟨why, t₁, hmake, -, h'⟩ | ⟨t₁, l, -, -, -, h'⟩
  · obtain ⟨hfault, ht⟩ := Prod.mk.inj (h.symm.trans h')
    exact ⟨by rw [ht, hmake], .inl ⟨why, Except.error.inj hfault⟩⟩
  · obtain ⟨hfault, ht⟩ := Prod.mk.inj (h.symm.trans h')
    exact ⟨by rw [ht, hmake], .inr ⟨why, Except.error.inj hfault⟩⟩
  · simp [h] at h'

/-- A file can be put where it was put before. -/
theorem fileSite_insert_file {l : Location} (hl : t.fileSite path = .ok l) (content : ByteArray) :
    (t.insert l (.file content)).fileSite path = .ok l := by
  have hkeeps := KeepsDirectories.insert_file hl content
  obtain ⟨folder, name, hfollow, -, rfl⟩ := fileSite_eq_ok_iff.mp hl
  have hentry := get?_insert_self (l := folder ++ [name]) (by simp) t (.file content)
  rw [fileSite_eq_ok_iff]
  exact ⟨folder, name, hkeeps.follow hfollow, by simp [hentry], rfl⟩

/-- A file is at its place, all others are as before, and any new directory is above it. -/
structure PutsFile (path : String) (l : Location) (content : ByteArray) (t t' : FileTree) :
    Prop where
  site : t'.fileSite path = .ok l
  written : t'.file? l = some content
  others : ∀ k, k ≠ l → t'.file? k = t.file? k
  kept : KeepsDirectories t t'
  added : ∀ k, t.get? k ≠ some .directory → t'.get? k = some .directory →
    ∃ p, Path.Above p (Path.directory path) ∧ t'.directoryAt p = .ok k

theorem save_puts (h : t.save c path content = (.ok (), t')) :
    ∃ l, PutsFile path l content t t' := by
  obtain ⟨t₁, l, hmake, -, hl, ht⟩ := save_eq_ok h
  have hadds := makeDirectories_adds t (Path.directory path)
  rw [hmake] at hadds
  have hkeeps := KeepsDirectories.insert_file hl content
  have hroot : l ≠ [] := by
    obtain ⟨folder, name, -, -, rfl⟩ := fileSite_eq_ok_iff.mp hl
    simp
  have hwritten := get?_insert_self hroot t₁ (.file content)
  have hothers := fun k hk => get?_insert_of_ne (k := k) hroot hk t₁ (.file content)
  rw [ht]
  refine ⟨l, fileSite_insert_file hl content, file?_eq_some_iff.mpr hwritten, ?_, ?_, ?_⟩
  · intro k hk
    rw [file?_congr (hothers k hk), hadds.file?]
  · intro k hk
    exact hkeeps k (hadds.keepsDirectories k hk)
  · intro k hold hnew
    have hk : k ≠ l := by
      intro hkl
      rw [hkl, hwritten] at hnew
      simp at hnew
    rw [hothers k hk] at hnew
    obtain ⟨p, hp, hat⟩ := hadds.exists_way hold hnew
    exact ⟨p, Path.above_of_mem_upward hp, hkeeps.directoryAt hat⟩

theorem save_fails {fault : FileFault} (h : t.save c path content = (.error fault, t')) :
    AddsDirectories (· ∈ Path.upward (Path.directory path)) t t' := by
  rw [(save_eq_error h).1]
  exact makeDirectories_adds t _

/-- The two paths lead to the same place for a file. -/
def SameFile (t : FileTree) (p q : String) : Prop :=
  ∃ l, t.fileSite p = .ok l ∧ t.fileSite q = .ok l

theorem sameFile_iff {t : FileTree} {p q : String} :
    t.SameFile p q ↔ (t.fileSite p).toBool = true ∧ t.fileSite p = t.fileSite q := by
  unfold SameFile
  cases t.fileSite p with
  | error e => simp [Except.toBool]
  | ok l => simp [Except.toBool, eq_comm]

instance (t : FileTree) (p q : String) : Decidable (t.SameFile p q) :=
  decidable_of_iff _ sameFile_iff.symm

namespace PutsFile
variable {l : Location}

theorem read (h : PutsFile path l content t t') : t'.read path = .ok content := by
  obtain ⟨folder, name, hfollow, -, rfl⟩ := fileSite_eq_ok_iff.mp h.site
  rw [read_eq_ok_iff]
  exact ⟨folder, name, hfollow, file?_eq_some_iff.mp h.written⟩

/-- Any other file can be read as before. -/
theorem read_other (h : PutsFile path l content t t') {other : String} {bytes : ByteArray}
    (hother : ¬ t'.SameFile other path) (hread : t.read other = .ok bytes) :
    t'.read other = .ok bytes := by
  obtain ⟨folder, name, hfollow, hentry⟩ := read_eq_ok_iff.mp hread
  have hfollow' := h.kept.follow hfollow
  by_cases hl : folder ++ [name] = l
  · -- then the other path leads to the file that was put
    have hfile := file?_eq_some_iff.mp h.written
    have hsite : t'.fileSite other = .ok l := by
      rw [fileSite_eq_ok_iff]
      exact ⟨folder, name, hfollow', by simp [hl, hfile], hl⟩
    exact absurd ⟨l, hsite, h.site⟩ hother
  · have hsame := h.others _ hl
    rw [file?_eq_some_iff.mpr hentry, file?_eq_some_iff] at hsame
    rw [read_eq_ok_iff]
    exact ⟨folder, name, hfollow', hsame⟩

end PutsFile

/-- A new file can still be made beside a file that was put, as long as that has another name. -/
theorem canStage_insert_file {l : Location} {left : Nat} (content : ByteArray)
    (hdir : t.isDirectory (Path.directory path) = true) (hl : t.fileSite path = .ok l)
    (hname : ∀ n, (Path.names path).getLast? ≠ some (tempName n))
    (h : t.CanStage c (Path.directory path) left) :
    (t.insert l (.file content)).CanStage c (Path.directory path) left := by
  obtain ⟨folder, hat⟩ := isDirectory_iff.mp hdir
  apply h.below ((KeepsDirectories.insert_file hl content).directoryAt hat) hat
  intro n hfree
  obtain ⟨here, name, hfollow, -, rfl⟩ := fileSite_eq_ok_iff.mp hl
  obtain ⟨-, -, -, before, hnames, -⟩ := follow_eq_name_iff.mp hfollow
  rw [get?_insert_of_ne (by simp)]
  · exact hfree
  · intro heq
    apply hname n
    rw [hnames, List.getLast?_concat, (List.append_singleton_inj.mp heq).2]

/-- Saving the same file again changes nothing, whether it succeeds or not. -/
theorem save_again_unchanged (h : t.save c path content = (.ok (), t')) (c' : Circumstances) :
    (t'.save c' path content).2 = t' := by
  obtain ⟨t₁, l, hmake, -, hl, rfl⟩ := save_eq_ok h
  have hkeeps := KeepsDirectories.insert_file hl content
  have hagain := makeNested_again hmake hkeeps
  rcases save_cases (t₁.insert l (.file content)) c' path content with
    ⟨why, t₂, hmake', hsave⟩ | ⟨why, t₂, hmake', -, hsave⟩ | ⟨t₂, k, hmake', -, hk, hsave⟩
  · rw [hsave]
    exact (Prod.mk.inj (hmake'.symm.trans hagain)).2
  · rw [hsave]
    exact (Prod.mk.inj (hmake'.symm.trans hagain)).2
  · obtain rfl := (Prod.mk.inj (hmake'.symm.trans hagain)).2
    obtain rfl := Except.ok.inj (hk.symm.trans (fileSite_insert_file hl content))
    rw [hsave, insert_insert]

/-- It succeeds again in the same circumstances. -/
theorem save_again (h : t.save c path content = (.ok (), t'))
    (hname : ∀ n, (Path.names path).getLast? ≠ some (tempName n)) :
    t'.save c path content = (.ok (), t') := by
  obtain ⟨t₁, l, hmake, hadmits, hl, rfl⟩ := save_eq_ok h
  have hdir := isDirectory_of_makeDirectories hmake
  have hstaged := canStage_insert_file content hdir hl hname hadmits.staged
  have hagain := makeNested_again hmake (KeepsDirectories.insert_file hl content)
  rw [save_of_admits hagain ⟨hadmits.toGrants, hstaged⟩ (fileSite_insert_file hl content),
    insert_insert]

end Saving

end TaggedUnion.FileTree

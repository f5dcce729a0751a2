import PaneTiling.Files

/-!
A file that is written is found where it was written. Making a folder or putting a file leaves every
folder a folder, so a path still leads where it led; and the way by a draft is open wherever the
draft and the file itself may be put.
-/

namespace PaneTiling.Files

variable {files made after : Files} {draft path : String} {names other : List String}
  {contents : ByteArray}

theorem IsFolder.above (h : files.IsFolder names) (hother : other <+: names) :
    files.IsFolder other := by
  obtain ⟨place, hplace, hnames⟩ := h
  exact ⟨place, hplace, hother.trans hnames⟩

theorem IsFolder.dropLast (h : files.IsFolder names) : files.IsFolder names.dropLast :=
  h.above <| List.dropLast_prefix names

theorem isFolder_folder (files : Files) : files.IsFolder files.folder :=
  ⟨_, List.mem_cons_self, List.prefix_rfl⟩

theorem isFolder_of_mem_folders (h : names ∈ files.folders) : files.IsFolder names :=
  ⟨names, List.mem_append_left _ (List.mem_cons_of_mem _ h), List.prefix_rfl⟩

theorem isFolder_dropLast_of_mem {entry : List String × ByteArray} (h : entry ∈ files.entries) :
    files.IsFolder entry.1.dropLast :=
  ⟨_, List.mem_append_right _ (List.mem_map_of_mem h), List.prefix_rfl⟩

structure KeepsFolders (files after : Files) : Prop where
  folder : after.folder = files.folder
  isFolder : ∀ {names}, files.IsFolder names → after.IsFolder names

theorem keepsFolders_of (hfolder : after.folder = files.folder)
    (hfolders : ∀ names ∈ files.folders, after.IsFolder names)
    (hentries : ∀ entry ∈ files.entries, after.IsFolder entry.1.dropLast) :
    files.KeepsFolders after := by
  refine ⟨hfolder, fun ⟨place, hplace, hnames⟩ => IsFolder.above ?_ hnames⟩
  simp only [opened, List.cons_append, List.mem_cons, List.mem_append, List.mem_map] at hplace
  rcases hplace with rfl | hmade | ⟨entry, hentry, rfl⟩
  · exact hfolder ▸ isFolder_folder after
  · exact hfolders place hmade
  · exact hentries entry hentry

theorem follow_of_keepsFolders (h : files.KeepsFolders after) {step : String} {next : List String}
    (hstep : files.follow names step = some next) : after.follow names step = some next := by
  unfold follow at hstep ⊢
  rw [Option.ite_none_right_eq_some] at hstep
  rw [if_pos (h.isFolder hstep.1), hstep.2]

theorem resolve_of_keepsFolders (h : files.KeepsFolders after)
    (hresolve : files.resolve path = some names) : after.resolve path = some names := by
  have hsteps : ∀ (steps start : List String) (_ : steps.foldlM files.follow start = some names),
      steps.foldlM after.follow start = some names := by
    intro steps
    induction steps with
    | nil => exact fun _ hstart => hstart
    | cons step steps ih =>
      intro start hstart
      obtain ⟨next, hnext, hrest⟩ := Option.bind_eq_some_iff.1 hstart
      rw [List.foldlM_cons, follow_of_keepsFolders h hnext]
      exact ih next hrest
  unfold resolve start at hresolve ⊢
  rw [Option.ite_none_left_eq_some] at hresolve ⊢
  rw [h.folder]
  exact ⟨hresolve.1, hsteps _ _ hresolve.2⟩

theorem isFolder_dropLast_of_resolve (hresolve : files.resolve path = some names)
    (hfree : ¬files.IsFolder names) : files.IsFolder names.dropLast := by
  unfold resolve at hresolve
  rw [Option.ite_none_left_eq_some] at hresolve
  rcases List.eq_nil_or_concat ((steps path).map String.ofList) with hnone | ⟨front, step, hsteps⟩
  · simp [steps] at hnone
  rw [hsteps, List.concat_eq_append, List.foldlM_append] at hresolve
  obtain ⟨before, -, hlast⟩ := Option.bind_eq_some_iff.1 hresolve.2
  rw [List.foldlM_cons] at hlast
  obtain ⟨last, hlast, hsame⟩ := Option.bind_eq_some_iff.1 hlast
  cases hsame
  rw [follow, Option.ite_none_right_eq_some] at hlast
  obtain ⟨hbefore, hnext⟩ := hlast
  cases hnext
  unfold next at hfree ⊢
  split at hfree
  · exact absurd hbefore hfree
  · split at hfree
    · exact absurd hbefore.dropLast hfree
    · rename_i hname hup
      rwa [if_neg hname, if_neg hup, List.dropLast_concat]

def Accepts (files : Files) (path : String) : Prop :=
  ∃ names, files.resolve path = some names ∧ ¬files.IsFolder names

theorem Accepts.congr (h : files.KeepsFolders after) (hback : after.KeepsFolders files) :
    files.Accepts path ↔ after.Accepts path :=
  ⟨fun ⟨names, hresolve, hfree⟩ =>
      ⟨names, resolve_of_keepsFolders h hresolve, fun hnames => hfree (hback.isFolder hnames)⟩,
    fun ⟨names, hresolve, hfree⟩ =>
      ⟨names, resolve_of_keepsFolders hback hresolve, fun hnames => hfree (h.isFolder hnames)⟩⟩

theorem write_eq_some_iff :
    files.write path contents = some after ↔
      ∃ names, (files.resolve path = some names ∧ ¬files.IsFolder names) ∧
        files.put names contents = after := by
  simp [write, Option.bind_eq_some_iff, and_assoc]

theorem isSome_write_iff (contents : ByteArray) :
    (files.write path contents).isSome ↔ files.Accepts path := by
  simp only [Option.isSome_iff_exists, write_eq_some_iff, Accepts]
  constructor
  · rintro ⟨_, names, hnames, _⟩
    exact ⟨names, hnames⟩
  · rintro ⟨names, hnames⟩
    exact ⟨_, names, hnames, rfl⟩

theorem keepsFolders_put (files : Files) (names : List String) (contents : ByteArray) :
    files.KeepsFolders (files.put names contents) := by
  refine keepsFolders_of rfl (fun _ hmade => isFolder_of_mem_folders hmade) fun entry hentry => ?_
  by_cases hsame : entry.1 = names
  · have hwritten : (names, contents) ∈ (files.put names contents).entries :=
      List.mem_append_right _ (List.mem_singleton_self _)
    rw [hsame]
    exact isFolder_dropLast_of_mem hwritten
  · exact isFolder_dropLast_of_mem
      (List.mem_append_left _ (List.mem_filter.2 ⟨hentry, decide_eq_true hsame⟩))

section Put

variable (hresolve : files.resolve path = some names) (hfree : ¬files.IsFolder names)
include hresolve hfree

theorem put_keepsFolders : (files.put names contents).KeepsFolders files := by
  refine keepsFolders_of rfl (fun _ hmade => isFolder_of_mem_folders hmade) fun entry hentry => ?_
  rcases List.mem_append.1 hentry with hkept | hnew
  · exact isFolder_dropLast_of_mem (List.mem_filter.1 hkept).1
  · rw [List.mem_singleton.1 hnew]
    exact isFolder_dropLast_of_resolve hresolve hfree

theorem entryAt_put : (files.put names contents).entryAt names = .file contents := by
  have hnone : (files.entries.filter (·.1 ≠ names)).find? (·.1 = names) = none :=
    List.find?_eq_none.2 fun entry hentry => by simpa using (List.mem_filter.1 hentry).2
  rw [entryAt, if_neg fun hfolder => hfree ((put_keepsFolders hresolve hfree).isFolder hfolder)]
  simp only [put, List.find?_append, hnone]
  simp

theorem look_put : (files.put names contents).look path = .file contents := by
  rw [look, resolve_of_keepsFolders (files.keepsFolders_put names contents) hresolve]
  exact entryAt_put hresolve hfree

theorem accepts_remove_put {target : String} :
    ((files.put names contents).remove path).Accepts target ↔ files.Accepts target := by
  have hremove : (files.put names contents).remove path =
      ⟨files.folder, names.dropLast :: files.folders, files.entries.filter (·.1 ≠ names)⟩ := by
    simp only [remove, resolve_of_keepsFolders (files.keepsFolders_put names contents) hresolve,
      entryAt_put hresolve hfree]
    simp [put]
  rw [hremove]
  refine Accepts.congr (keepsFolders_of rfl (fun made hmade => ?_) fun entry hentry => ?_)
    (keepsFolders_of rfl (fun made hmade => ?_) fun entry hentry => ?_)
  · rcases List.mem_cons.1 hmade with rfl | hmade
    · exact isFolder_dropLast_of_resolve hresolve hfree
    · exact isFolder_of_mem_folders hmade
  · exact isFolder_dropLast_of_mem (List.mem_filter.1 hentry).1
  · exact isFolder_of_mem_folders (List.mem_cons_of_mem _ hmade)
  · by_cases hsame : entry.1 = names
    · rw [hsame]
      exact isFolder_of_mem_folders List.mem_cons_self
    · exact isFolder_dropLast_of_mem (List.mem_filter.2 ⟨hentry, decide_eq_true hsame⟩)

end Put

theorem look_write (h : files.write path contents = some after) :
    after.look path = .file contents := by
  obtain ⟨names, hnames, rfl⟩ := write_eq_some_iff.1 h
  exact look_put hnames.1 hnames.2

def HasFile (files : Files) (names : List String) : Prop :=
  ∃ contents, files.entryAt names = .file contents

theorem hasFile_iff : files.HasFile names ↔
    ¬files.IsFolder names ∧ (files.entries.find? (·.1 = names)).isSome := by
  unfold HasFile entryAt
  split
  · rename_i hfolder
    simp [hfolder]
  · rename_i hfree
    cases files.entries.find? (·.1 = names) <;> simp [hfree]

theorem makeFolder_spec (hnames : files.IsFolder names.dropLast) :
    files.makeFolder names = none ∧ files.HasFile names ∨
      ∃ made, files.makeFolder names = some made ∧ ¬files.HasFile names ∧ made.IsFolder names ∧
        made.folder = files.folder ∧ ∀ other, made.HasFile other ↔ files.HasFile other := by
  unfold makeFolder HasFile
  cases hentry : files.entryAt names with
  | file contents => exact .inl ⟨rfl, contents, rfl⟩
  | folder =>
    refine .inr ⟨files, rfl, nofun, ?_, rfl, fun _ => .rfl⟩
    unfold entryAt at hentry
    split at hentry
    · assumption
    · split at hentry <;> cases hentry
  | missing =>
    refine .inr ⟨_, rfl, nofun, isFolder_of_mem_folders List.mem_cons_self, rfl, fun other => ?_⟩
    have hnone : ¬files.HasFile names := fun ⟨contents, hfile⟩ => by cases hentry.symm.trans hfile
    change HasFile _ other ↔ HasFile _ other
    rw [hasFile_iff, hasFile_iff]
    refine and_congr_left fun hfound => not_congr ?_
    have hmade : IsFolder { files with folders := names :: files.folders } other ↔
        other <+: names ∨ files.IsFolder other := by
      simp only [IsFolder, opened, List.cons_append, List.mem_cons, exists_eq_or_imp]
      exact or_left_comm
    rw [hmade, or_iff_right_iff_imp]
    intro hbelow
    rcases List.eq_nil_or_concat names with rfl | ⟨front, last, hlast⟩
    · exact hnames.above hbelow
    rw [List.concat_eq_append] at hlast
    subst hlast
    rw [List.dropLast_concat] at hnames
    rcases List.prefix_concat_iff.1 hbelow with rfl | hbelow
    · exact Classical.not_not.1 fun hfree => hnone (hasFile_iff.2 ⟨hfree, hfound⟩)
    · exact hnames.above hbelow

theorem fst_makeFolders_iff {steps : List String} (hnames : files.IsFolder names) :
    (files.makeFolders names steps).1 = true ↔
      ∀ before, before <+: steps → ¬files.HasFile (before.foldl next names) := by
  have hstart : ¬files.HasFile names := fun h => (hasFile_iff.1 h).1 hnames
  induction steps generalizing files names with
  | nil => simp [makeFolders, hstart]
  | cons step rest ih =>
    have hplace : files.IsFolder (next names step).dropLast := by
      unfold next
      split
      · exact hnames.dropLast
      · split
        · exact hnames.dropLast.dropLast
        · rwa [List.dropLast_concat]
    rcases makeFolder_spec hplace with ⟨hmade, hfile⟩ | ⟨made, hmade, hfree, hfolder, -, hsame⟩
    · refine iff_of_false (by simp [makeFolders, hmade]) fun h => ?_
      exact h [step] ⟨rest, rfl⟩ hfile
    · have hrest := ih hfolder fun h => hfree ((hsame _).1 h)
      simp only [makeFolders, hmade, hrest, hsame, List.prefix_cons_iff]
      constructor
      · rintro h before (rfl | ⟨later, rfl, hlater⟩)
        · exact hstart
        · exact h later hlater
      · exact fun h before hbefore => h (step :: before) (.inr ⟨before, rfl, hbefore⟩)

/-- No file stands where one of the steps above the path leads, and once there are folders, neither
the draft nor the path leads to one. -/
structure Takes (files : Files) (draft path : String) : Prop where
  opens : ∀ before, before <+: stepsAbove path →
    ¬files.HasFile (before.foldl next (files.start path))
  draft : (files.makeFoldersAbove path).2.Accepts draft
  path : (files.makeFoldersAbove path).2.Accepts path

theorem takes_iff : files.Takes draft path ↔ (files.makeFoldersAbove path).1 = true ∧
    (files.makeFoldersAbove path).2.Accepts draft ∧
      (files.makeFoldersAbove path).2.Accepts path := by
  have hstart : files.IsFolder (files.start path) := by
    unfold start
    split
    · exact (isFolder_folder files).above ⟨_, rfl⟩
    · exact isFolder_folder files
  rw [makeFoldersAbove, fst_makeFolders_iff hstart]
  exact ⟨fun h => ⟨h.opens, h.draft, h.path⟩, fun h => ⟨h.1, h.2.1, h.2.2⟩⟩

theorem look_replace (h : files.replace ⟨draft, path, contents⟩ = (true, after)) :
    after.look path = .file contents := by
  unfold replace at h
  split at h
  · cases h
  · split at h
    · cases h
    · split at h
      · cases h
      · rename_i hwrite
        cases h
        exact look_write hwrite

theorem exists_replace_iff :
    (∃ after, files.replace ⟨draft, path, contents⟩ = (true, after)) ↔ files.Takes draft path := by
  rw [takes_iff]
  unfold replace
  rcases files.makeFoldersAbove path with ⟨_ | _, made⟩
  · simp
  simp only [true_and]
  cases hdraft : made.write draft contents with
  | none =>
    have hrefused : ¬made.Accepts draft := by
      rw [← isSome_write_iff contents, hdraft]
      nofun
    simp [hrefused]
  | some drafted =>
    obtain ⟨names, hnames, rfl⟩ := write_eq_some_iff.1 hdraft
    have hdraft : made.Accepts draft := ⟨names, hnames⟩
    have hpath : (((made.put names contents).remove draft).write path contents).isSome ↔
        made.Accepts path :=
      (isSome_write_iff contents).trans (accepts_remove_put hnames.1 hnames.2)
    simp only [← hpath, hdraft, true_and]
    cases ((made.put names contents).remove draft).write path contents <;> simp

theorem fromUTF8?_toUTF8 (text : String) : String.fromUTF8? text.toUTF8 = some text :=
  dif_pos text.isValidUTF8

end PaneTiling.Files

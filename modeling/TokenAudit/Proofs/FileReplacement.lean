import TokenAudit.Audit
import TokenAudit.Proofs.PathParts

/-!
# Replacing a file

An artifact is put in place by a temporary file that is filled and renamed.  `Opens`, `Holds` and
`Receives` say when the steps of that succeed, in terms of what stands where and of what the system
refuses.  `Replaced` says what is left if they all do: the path leads to one place, the bytes stand
there, and every other place is as it was.

* `Artifact.puts_writeTo`: writing an artifact replaces one file, or it changes nothing because one
  of the steps must fail.
* `Artifact.writeTo_eq_ok_iff`: it replaces the file if and only if the file system admits the bytes,
  which `Admits` says in terms of the path and of what the system refuses.
-/

namespace TokenAudit

namespace FileSystem

open TokenAudit.Path

variable {fs files : FileSystem} {path : String} {directory target : Place} {bytes : ByteArray}

/-! ### File systems with the same directories -/

/-- Two file systems have the same directories and the same working directory. -/
structure SameDirectories (fs files : FileSystem) : Prop where
  workingDirectory_eq : files.workingDirectory = fs.workingDirectory
  directory_iff : ∀ place, files.lookup place = some .directory ↔ fs.lookup place = some .directory

theorem SameDirectories.locate_eq_ok_iff (h : SameDirectories fs files) :
    files.locate path = .ok target ↔ fs.locate path = .ok target := by
  have hstart : files.start path = fs.start path := by
    rw [start, start, here, here, h.workingDirectory_eq]
  rw [locate, locate, hstart]
  split_ifs
  · rfl
  · rfl
  · exact ⟨follow_of_directories fun place => (h.directory_iff place).1,
      follow_of_directories fun place => (h.directory_iff place).2⟩

theorem not_stands_of_lookup_ne {place : Place} (h : fs.lookup place ≠ some .directory) :
    ¬ fs.Stands place := fun hstands => h (lookup_of_stands hstands)

/-- A file where no directory stands takes no directory away. -/
theorem sameDirectories_insert_file {place : Place} (h : fs.lookup place ≠ some .directory)
    (bytes : ByteArray) : SameDirectories fs (fs.insert place (.file bytes)) := by
  refine ⟨rfl, fun other => ?_⟩
  rw [lookup_insert (not_stands_of_lookup_ne h)]
  by_cases hother : other = place
  · rw [if_pos hother, hother]
    exact iff_of_false nofun h
  · rw [if_neg hother]

/-! ### Creating and filling a temporary file -/

/-- A temporary file can be created in the directory to which a path leads. -/
structure Opens (fs : FileSystem) (path : String) (directory : Place) : Prop where
  plain : path.toList.contains '\x00' = false
  short : (fs.temporaryPath path).utf8ByteSize ≤ Path.maxLength
  leads : fs.follow (fs.start path) (names path) = .ok directory
  isDirectory : fs.lookup directory = some .directory
  creates : fs.refusal? (.create (fs.temporaryIn directory)) = none

/-- A temporary file can be created and filled with bytes. -/
structure Holds (fs : FileSystem) (path : String) (bytes : ByteArray) (directory : Place) : Prop
    extends Opens fs path directory where
  stores : fs.refusal? (.store (fs.temporaryIn directory) bytes) = none
  flushes : fs.refusal? (.flush (fs.temporaryIn directory)) = none

theorem Opens.unique {other : Place} (h : Opens fs path directory) (hother : Opens fs path other) :
    directory = other := by
  have heq := h.leads.symm.trans hother.leads
  exact Except.ok.inj heq

theorem createTemporary_eq_ok_iff {created : Place × FileSystem} :
    fs.createTemporary path = .ok created ↔
      ∃ directory, Opens fs path directory ∧
        created = (fs.temporaryIn directory, fs.insert (fs.temporaryIn directory) (.file .empty)) := by
  constructor
  · intro h
    rw [createTemporary] at h
    dsimp only at h
    split_ifs at h with hplain hlong
    split at h
    · cases h
    · rename_i directory hleads
      split at h
      · cases h
      · cases h
      · rename_i hdirectory
        split at h
        · cases h
        · rename_i hcreates
          cases h
          exact ⟨directory, ⟨Bool.not_eq_true _ ▸ hplain, Nat.not_lt.1 hlong, hleads, hdirectory,
            hcreates⟩, rfl⟩
  · rintro ⟨directory, h, rfl⟩
    have hcreates := h.creates
    rw [temporaryIn] at hcreates
    rw [createTemporary, h.plain, h.leads]
    simp only [Bool.false_eq_true, if_false, Nat.not_lt.2 h.short, h.isDirectory, hcreates]
    rfl

theorem store_eq_ok_iff {temporary : Place} :
    fs.store temporary bytes = .ok files ↔
      fs.refusal? (.store temporary bytes) = none ∧ files = fs.insert temporary (.file bytes) := by
  rw [store]
  cases fs.refusal? (.store temporary bytes) with
  | some refusal => simp
  | none => simp [eq_comm]

theorem flush_eq_ok_iff {temporary : Place} :
    fs.flush temporary = .ok files ↔ fs.refusal? (.flush temporary) = none ∧ files = fs := by
  rw [flush]
  cases fs.refusal? (.flush temporary) with
  | some refusal => simp
  | none => simp [eq_comm]

theorem fill_eq_ok_iff {temporary : Place} :
    fs.fill temporary bytes = .ok files ↔
      fs.refusal? (.store temporary bytes) = none ∧ fs.refusal? (.flush temporary) = none ∧
        files = fs.insert temporary (.file bytes) := by
  constructor
  · intro h
    cases hstored : fs.store temporary bytes with
    | error refusal =>
        rw [fill, hstored] at h
        cases h
    | ok stored =>
        rw [fill, hstored] at h
        obtain ⟨hstores, rfl⟩ := store_eq_ok_iff.1 hstored
        obtain ⟨hflushes, rfl⟩ := flush_eq_ok_iff.1 h
        exact ⟨hstores, hflushes, rfl⟩
  · rintro ⟨hstores, hflushes, rfl⟩
    rw [fill, store_eq_ok_iff.2 ⟨hstores, rfl⟩]
    exact flush_eq_ok_iff.2 ⟨hflushes, rfl⟩

/-! ### Renaming -/

/-- A path whose last name is one that a file can have. -/
def NamesFile (path : String) : Prop := endsInSlash path = false ∧ IsName (lastName path)

theorem NamesFile.ne_empty (h : NamesFile path) : path ≠ "" := by
  rintro rfl
  exact h.2.1 rfl

/-- A file at a place can be renamed to a path. -/
structure Receives (fs : FileSystem) (source : Place) (path : String) (target : Place) : Prop where
  plain : path.toList.contains '\x00' = false
  named : NamesFile path
  locate_eq : fs.locate path = .ok target
  free : fs.lookup target ≠ some .directory
  renames : fs.refusal? (.rename source target) = none

/-- Where a path leads that does not end in a slash. -/
theorem locate_eq_ok_iff (h : NamesFile path) (hshort : path.utf8ByteSize ≤ Path.maxLength) :
    fs.locate path = .ok target ↔
      ∃ directory, fs.follow (fs.start path) (splitLast path).1 = .ok directory ∧
        fs.lookup directory = some .directory ∧ target = directory ++ [lastName path] := by
  rw [locate, if_neg h.ne_empty, if_neg (Nat.not_lt.2 hshort), names_eq_splitLast h.ne_empty h.1]
  constructor
  · intro hlocate
    obtain ⟨directory, habove, hlast⟩ := exists_follow_of_append hlocate
    obtain ⟨hdirectory, -⟩ := exists_inner_of_follow_cons hlast
    rw [follow_cons_of_isName hdirectory h.2] at hlast
    cases hlast
    exact ⟨directory, habove, hdirectory, rfl⟩
  · rintro ⟨directory, habove, hdirectory, rfl⟩
    rw [follow_append habove, follow_cons_of_isName hdirectory h.2]
    rfl

theorem utf8ByteSize_le_of_locate (h : fs.locate path = .ok target) :
    path.utf8ByteSize ≤ Path.maxLength := by
  rw [locate] at h
  split_ifs at h with hempty hlong
  exact Nat.not_lt.1 hlong

theorem renameTarget_eq_ok_iff :
    fs.renameTarget path = .ok target ↔
      NamesFile path ∧ fs.locate path = .ok target ∧ fs.lookup target ≠ some .directory := by
  constructor
  · intro h
    rw [renameTarget] at h
    split at h
    · cases h
    split at h
    · cases h
    rename_i hempty hlong
    dsimp only at h
    split at h
    · cases h
    · rename_i directory habove
      split at h
      · cases h
      · cases h
      · rename_i hdirectory
        split_ifs at h with hdots hname hslash
        rw [not_or, not_or] at hdots
        have hnamed : NamesFile path := ⟨Bool.not_eq_true _ ▸ hslash, hdots.1, hdots.2.1,
          hdots.2.2, Nat.not_lt.1 hname⟩
        split at h
        · cases h
        · rename_i hfree
          cases h
          exact ⟨hnamed, (locate_eq_ok_iff hnamed (Nat.not_lt.1 hlong)).2
            ⟨directory, habove, hdirectory, rfl⟩, hfree⟩
  · rintro ⟨hnamed, hlocate, hfree⟩
    have hshort := utf8ByteSize_le_of_locate hlocate
    obtain ⟨directory, habove, hdirectory, rfl⟩ := (locate_eq_ok_iff hnamed hshort).1 hlocate
    obtain ⟨hempty, hdot, hdots, hname⟩ := hnamed.2
    have hlast : (splitLast path).2 = lastName path := rfl
    simp only [renameTarget, hlast, if_neg hnamed.ne_empty, if_neg (Nat.not_lt.2 hshort), habove,
      hdirectory, hempty, hdot, hdots, or_self, if_false, if_neg (Nat.not_lt.2 hname), hnamed.1,
      Bool.false_eq_true]

theorem rename_eq_ok_iff {source : Place} {node : Node} (hsource : fs.lookup source = some node) :
    fs.rename source path = .ok files ↔
      ∃ target, Receives fs source path target ∧
        files = (fs.erase source).insert target node := by
  constructor
  · intro h
    rw [rename] at h
    split_ifs at h with hplain
    split at h
    · cases h
    · cases h
    · rename_i target held htarget hheld
      obtain rfl := Option.some.inj (hsource.symm.trans hheld)
      obtain ⟨hnamed, hlocate, hfree⟩ := renameTarget_eq_ok_iff.1 htarget
      split at h
      · cases h
      · rename_i hrenames
        cases h
        exact ⟨target, ⟨Bool.not_eq_true _ ▸ hplain, hnamed, hlocate, hfree, hrenames⟩, rfl⟩
  · rintro ⟨target, h, rfl⟩
    have htarget := renameTarget_eq_ok_iff.2 ⟨h.named, h.locate_eq, h.free⟩
    rw [rename, h.plain, htarget, hsource]
    simp only [Bool.false_eq_true, if_false, h.renames]

/-- Where a temporary file can be renamed to could be told before it was there. -/
theorem receives_insert_file_iff {source place : Place} (h : fs.lookup place ≠ some .directory) :
    Receives (fs.insert place (.file bytes)) source path target ↔
      Receives fs source path target := by
  have hsame := sameDirectories_insert_file h bytes
  constructor
  · intro hreceives
    exact ⟨hreceives.plain, hreceives.named, hsame.locate_eq_ok_iff.1 hreceives.locate_eq,
      mt (hsame.directory_iff target).2 hreceives.free, hreceives.renames⟩
  · intro hreceives
    exact ⟨hreceives.plain, hreceives.named, hsame.locate_eq_ok_iff.2 hreceives.locate_eq,
      mt (hsame.directory_iff target).1 hreceives.free, hreceives.renames⟩

/-! ### What it takes in all -/

/-- What is asked of the system while bytes are put at a place. -/
def requests (temporary target : Place) (bytes : ByteArray) : List Request :=
  [.create temporary, .store temporary bytes, .flush temporary, .rename temporary target]

/-- Bytes can be put at a path: its directory is there, its last name is one that a file can have and
that no directory has, and the system refuses none of the steps. -/
structure Admits (fs : FileSystem) (path : String) (bytes : ByteArray) (directory : Place) : Prop where
  plain : path.toList.contains '\x00' = false
  short : path.utf8ByteSize ≤ Path.maxLength
  shortBeside : (fs.temporaryPath (Path.directory path)).utf8ByteSize ≤ Path.maxLength
  parent : fs.locate (Path.directory path) = .ok directory
  isDirectory : fs.lookup directory = some .directory
  named : NamesFile path
  free : fs.lookup (directory ++ [lastName path]) ≠ some .directory
  allowed : ∀ request ∈ requests (fs.temporaryIn directory) (directory ++ [lastName path]) bytes,
    fs.refusal? request = none

theorem utf8ByteSize_le_temporaryPath (fs : FileSystem) (path : String) :
    path.utf8ByteSize ≤ (fs.temporaryPath path).utf8ByteSize :=
  Nat.le_trans (utf8ByteSize_le_join_right _ _) (utf8ByteSize_le_join_left _ rfl)

theorem locate_of_short (hne : path ≠ "") (hshort : path.utf8ByteSize ≤ Path.maxLength) :
    fs.locate path = fs.follow (fs.start path) (names path) := by
  rw [locate, if_neg hne, if_neg (Nat.not_lt.2 hshort)]

/-- All steps succeed if and only if the file system admits the bytes. -/
theorem exists_holds_and_receives_iff :
    (∃ directory target, Holds fs (Path.directory path) bytes directory ∧
      Receives fs (fs.temporaryIn directory) path target) ↔
      ∃ directory, Admits fs path bytes directory := by
  constructor
  · rintro ⟨directory, target, hholds, hreceives⟩
    have hshort := utf8ByteSize_le_of_locate hreceives.locate_eq
    obtain ⟨above, habove, hisDirectory, rfl⟩ :=
      (locate_eq_ok_iff hreceives.named hshort).1 hreceives.locate_eq
    -- The temporary file lies in the directory that holds the last name.
    have hleads := (follow_directory_iff hreceives.named.ne_empty hreceives.named.1
      hreceives.named.2.2.1 hisDirectory).2 habove
    obtain rfl : above = directory := Except.ok.inj (hleads.symm.trans hholds.leads)
    refine ⟨above, hreceives.plain, hshort, hholds.short, ?_, hisDirectory, hreceives.named,
      hreceives.free, ?_⟩
    · rw [locate_of_short (directory_ne_empty path)
        (Nat.le_trans (utf8ByteSize_le_temporaryPath fs _) hholds.short), hleads]
    · simp only [requests, List.forall_mem_cons]
      exact ⟨hholds.creates, hholds.stores, hholds.flushes, hreceives.renames, by simp⟩
  · rintro ⟨directory, h⟩
    have hleads := h.parent
    rw [locate_of_short (directory_ne_empty path)
      (Nat.le_trans (utf8ByteSize_le_temporaryPath fs _) h.shortBeside)] at hleads
    have habove := (follow_directory_iff h.named.ne_empty h.named.1 h.named.2.2.1 h.isDirectory).1
      hleads
    have hplain : (Path.directory path).toList.contains '\x00' = false := by
      rw [Bool.eq_false_iff]
      intro hnul
      rcases mem_of_mem_directory h.named.ne_empty h.named.1 h.named.2.2.1
        (List.contains_iff_mem.1 hnul) with hdot | hmem
      · cases hdot
      · exact Bool.eq_false_iff.1 h.plain (List.contains_iff_mem.2 hmem)
    have hallowed := h.allowed
    simp only [requests, List.forall_mem_cons] at hallowed
    obtain ⟨hcreates, hstores, hflushes, hrenames, -⟩ := hallowed
    exact ⟨directory, directory ++ [lastName path],
      ⟨⟨hplain, h.shortBeside, hleads, h.isDirectory, hcreates⟩, hstores, hflushes⟩,
      h.plain, h.named, (locate_eq_ok_iff h.named h.short).2 ⟨directory, habove, h.isDirectory, rfl⟩,
      h.free, hrenames⟩

/-! ### What a replaced file leaves -/

/-- A file was put at the place to which a path leads, and nothing else was changed. -/
structure Replaced (fs files : FileSystem) (path : String) (target : Place) (bytes : ByteArray) :
    Prop where
  plain : path.toList.contains '\x00' = false
  locate_eq : files.locate path = .ok target
  entry_eq : files.found? target = some { node := .file bytes }
  same : SameDirectories fs files
  frame : ∀ place, place ≠ target → files.found? place = fs.found? place

theorem Receives.replaced {source : Place} (h : Receives fs source path target) (bytes : ByteArray) :
    Replaced fs (fs.insert target (.file bytes)) path target bytes := by
  have hplace := not_stands_of_lookup_ne h.free
  have hsame := sameDirectories_insert_file h.free bytes
  refine ⟨h.plain, hsame.locate_eq_ok_iff.2 h.locate_eq, ?_, hsame, fun place hne => ?_⟩
  · rw [found?_insert hplace, if_pos rfl]
  · rw [found?_insert hplace, if_neg hne]

theorem Replaced.read_eq (h : Replaced fs files path target bytes) :
    files.read path = .ok bytes := by
  rw [read, h.plain, h.locate_eq]
  simp [h.entry_eq]

/-- A file with the contents that are put in place elsewhere keeps them, also if both paths lead to
one place. -/
theorem Replaced.read_of_read (h : Replaced fs files path target bytes) {other : String}
    (hread : fs.read other = .ok bytes) : files.read other = .ok bytes := by
  rw [read] at hread ⊢
  split_ifs at hread ⊢
  split at hread
  · cases hread
  · rename_i place hplace
    rw [h.same.locate_eq_ok_iff.2 hplace]
    -- Both paths may lead to one place, where the same bytes were put.
    by_cases hsame : place = target
    · simp [hsame, h.entry_eq]
    · simpa [h.frame place hsame] using hread

end FileSystem

namespace Artifact

open FileSystem

/-- What becomes of bytes that are to be put at a path: the result, and the file system it leaves. -/
inductive Puts (fs : FileSystem) (path : String) (bytes : ByteArray) :
    Except ArtifactError Unit × FileSystem → Prop
  /-- No temporary file can be created and filled with the bytes. -/
  | unheld {cause : IoError} :
      (∀ directory, ¬ Holds fs (Path.directory path) bytes directory) →
      Puts fs path bytes (.error (.write path cause), fs)
  /-- The temporary file cannot be renamed. -/
  | unplaced {directory : Place} {cause : IoError} :
      Holds fs (Path.directory path) bytes directory →
      (∀ target, ¬ Receives fs (fs.temporaryIn directory) path target) →
      Puts fs path bytes (.error (.replace path cause), fs)
  /-- The bytes are in their place. -/
  | placed {directory target : Place} {files : FileSystem} :
      Holds fs (Path.directory path) bytes directory →
      Receives fs (fs.temporaryIn directory) path target →
      Replaced fs files path target bytes → Puts fs path bytes (.ok (), files)

/-- Writing an artifact replaces the file at the path, or it changes nothing because one of the steps
must fail. -/
theorem puts_writeTo (artifact : Artifact) (fs : FileSystem) (path : String) :
    Puts fs path artifact.contents.toUTF8 (artifact.writeTo fs path) := by
  generalize hbytes : artifact.contents.toUTF8 = bytes
  rw [writeTo, hbytes]
  cases hcreated : fs.createTemporary (Path.directory path) with
  | error cause =>
      refine .unheld fun directory h => ?_
      have hok := createTemporary_eq_ok_iff.2 ⟨directory, h.toOpens, rfl⟩
      rw [hcreated] at hok
      cases hok
  | ok created =>
      obtain ⟨directory, hopens, rfl⟩ := createTemporary_eq_ok_iff.1 hcreated
      -- Nothing had the place of the temporary file, so no directory is lost there.
      have hfree : fs.lookup (fs.temporaryIn directory) ≠ some .directory := by
        simp [lookup_temporaryIn]
      dsimp only
      cases hfilled : (fs.insert (fs.temporaryIn directory) (.file .empty)).fill
          (fs.temporaryIn directory) bytes with
      | error refusal =>
          dsimp only
          rw [erase_insert_temporaryIn]
          refine .unheld fun other hholds => ?_
          obtain rfl := hopens.unique hholds.toOpens
          have hok : (fs.insert (fs.temporaryIn directory) (.file .empty)).fill
              (fs.temporaryIn directory) bytes = .ok _ :=
            fill_eq_ok_iff.2 ⟨hholds.stores, hholds.flushes, rfl⟩
          rw [hfilled] at hok
          cases hok
      | ok filled =>
          obtain ⟨hstores, hflushes, rfl⟩ := fill_eq_ok_iff.1 hfilled
          have hholds : Holds fs (Path.directory path) bytes directory :=
            ⟨hopens, hstores, hflushes⟩
          rw [insert_insert]
          have hheld : (fs.insert (fs.temporaryIn directory) (.file bytes)).lookup
              (fs.temporaryIn directory) = some (.file bytes) := by
            rw [lookup_insert (fs.not_stands_temporaryIn directory), if_pos rfl]
          dsimp only
          cases hrenamed : (fs.insert (fs.temporaryIn directory) (.file bytes)).rename
              (fs.temporaryIn directory) path with
          | error cause =>
              dsimp only
              rw [erase_insert_temporaryIn]
              refine .unplaced hholds fun target hreceives => ?_
              have hok := (rename_eq_ok_iff hheld).2
                ⟨target, (receives_insert_file_iff hfree).2 hreceives, rfl⟩
              rw [hrenamed] at hok
              cases hok
          | ok files =>
              obtain ⟨target, hreceives, rfl⟩ := (rename_eq_ok_iff hheld).1 hrenamed
              rw [receives_insert_file_iff hfree] at hreceives
              rw [erase_insert_temporaryIn]
              exact .placed hholds hreceives (hreceives.replaced bytes)

/-- Nothing stands anew but at the path to which bytes were put. -/
theorem Puts.lookup_ne_none {fs : FileSystem} {path : String} {bytes : ByteArray}
    {written : Except ArtifactError Unit × FileSystem} (h : Puts fs path bytes written)
    {place : Place} (hplace : written.2.lookup place ≠ none) :
    fs.lookup place ≠ none ∨ written.2.locate path = .ok place := by
  cases h with
  | unheld | unplaced => exact .inl hplace
  | @placed _ target _ _ _ hreplaced =>
      by_cases hsame : place = target
      · exact .inr (hsame ▸ hreplaced.locate_eq)
      · left
        rwa [lookup, hreplaced.frame place hsame] at hplace

/-- An artifact is put in its place if and only if the file system admits its text. -/
theorem writeTo_eq_ok_iff (artifact : Artifact) (fs : FileSystem) (path : String) :
    (artifact.writeTo fs path).1 = .ok () ↔
      ∃ directory, Admits fs path artifact.contents.toUTF8 directory := by
  rw [← exists_holds_and_receives_iff]
  have hputs := artifact.puts_writeTo fs path
  generalize artifact.writeTo fs path = written at hputs ⊢
  cases hputs with
  | unheld hunheld =>
      refine iff_of_false (by simp) ?_
      rintro ⟨directory, target, hholds, hreceives⟩
      exact hunheld directory hholds
  | unplaced hholds hunplaced =>
      refine iff_of_false (by simp) ?_
      rintro ⟨directory, target, hother, hreceives⟩
      obtain rfl := hholds.toOpens.unique hother.toOpens
      exact hunplaced target hreceives
  | placed hholds hreceives _ => exact iff_of_true rfl ⟨_, _, hholds, hreceives⟩

/-- A path may lead above the working directory, and the file is found there from the top. -/
example :
    let fs : FileSystem := { workingDirectory := "/work" }
    (failure.writeTo fs "../out").2.read "/out" = .ok "ERROR".toUTF8 := by decide +kernel

/-- A full disk is noticed when the bytes are written out, and then no file is left. -/
example :
    let fs : FileSystem := { workingDirectory := "/work", refusal? := fun request =>
      if request matches .flush _ then some ⟨28⟩ else none }
    (failure.writeTo fs "/work/out").1 =
        .error (.write "/work/out" (.temporary ⟨28⟩ "/work/.tmp******")) ∧
      (failure.writeTo fs "/work/out").2.entries.isEmpty = true := by decide +kernel

end Artifact

namespace Audit

variable {κ : Type} [TokenSink κ]

/-- The judgement of an audit on its input. -/
def judged (fs : FileSystem) (input : String) (sink : κ) : Except Fault Verdict :=
  (validateRead (Source.load fs input).value sink).value.1

theorem value_finish (result : Except Fault Verdict) (fs : FileSystem) (output : String) :
    (finish result fs output).value =
      ((conclude result output ((artifactOf result).writeTo fs output).1).value,
        ((artifactOf result).writeTo fs output).2) := by
  unfold finish
  generalize (artifactOf result).writeTo fs output = written
  rfl

theorem result_runWithSink (fs : FileSystem) (input output : String) (sink : κ) :
    (runWithSink fs input output sink).value.result =
      (conclude (judged fs input sink) output
        ((artifactOf (judged fs input sink)).writeTo fs output).1).value := by
  show (finish (judged fs input sink) fs output).value.1 = _
  rw [value_finish]

theorem files_runWithSink (fs : FileSystem) (input output : String) (sink : κ) :
    (runWithSink fs input output sink).value.files =
      ((artifactOf (judged fs input sink)).writeTo fs output).2 := by
  show (finish (judged fs input sink) fs output).value.2 = _
  rw [value_finish]

/-- An audit that does not fail to write replaces its output by the artifact of its judgement. -/
theorem exists_replaced_of_written {fs : FileSystem} {input output : String} {sink : κ}
    (h : ∀ error, (runWithSink fs input output sink).value.result ≠ .error (.write error)) :
    ∃ target, FileSystem.Replaced fs (runWithSink fs input output sink).value.files output target
      (artifactOf (judged fs input sink)).contents.toUTF8 := by
  rw [result_runWithSink] at h
  rw [files_runWithSink]
  have hputs := (artifactOf (judged fs input sink)).puts_writeTo fs output
  generalize (artifactOf (judged fs input sink)).writeTo fs output = written at h hputs ⊢
  cases hputs with
  | unheld | unplaced => exact absurd rfl (h _)
  | placed _ _ hreplaced => exact ⟨_, hreplaced⟩

end Audit

end TokenAudit

import TokenAudit.Proofs.Places

/-!
# The last name of a path and the directory above it

A path that does not end in a slash consists of a last name and what stands in front of it.  The
directory in which a file at the path lies is told by a shorter path, from which slashes and names
`.` are stripped at the end, and it is the directory to which the names before the last one lead.

* `FileSystem.locate_pathOf`: every place has a path from the top.
* `Path.exists_last`: the two forms of a path that does not end in a slash.
* `FileSystem.follow_directory_iff`: both ways lead to the same directory.
-/

namespace TokenAudit

namespace Path

/-! ### Names between slashes -/

/-- The names in a text. -/
def namesOf (text : List Char) : List String := (segments text).map String.ofList

theorem segments_ne_nil (text : List Char) : segments text ≠ [] := by
  cases text with
  | nil => simp [segments]
  | cons c rest =>
      rw [segments]
      split
      · simp
      · split <;> simp

theorem segments_of_no_slash {text : List Char} (h : '/' ∉ text) : segments text = [text] := by
  induction text with
  | nil => rfl
  | cons c rest ih =>
      rw [List.mem_cons, not_or] at h
      rw [segments, if_neg (Ne.symm h.1), ih h.2]

/-- Behind the last slash stands the last name. -/
theorem segments_append_slash (up : List Char) {last : List Char} (h : '/' ∉ last) :
    segments (up ++ '/' :: last) = segments up ++ [last] := by
  induction up with
  | nil =>
      show segments ('/' :: last) = [[], last]
      rw [segments, if_pos rfl, segments_of_no_slash h]
  | cons c up ih =>
      rw [List.cons_append, segments, segments, ih]
      by_cases hc : c = '/'
      · rw [if_pos hc, if_pos hc]
        rfl
      · rw [if_neg hc, if_neg hc]
        cases hup : segments up with
        | nil => exact absurd hup (segments_ne_nil up)
        | cons first others => rfl

theorem namesOf_append_slash (up : List Char) {last : List Char} (h : '/' ∉ last) :
    namesOf (up ++ '/' :: last) = namesOf up ++ [String.ofList last] := by
  rw [namesOf, segments_append_slash up h, List.map_append]
  rfl

/-- In front of the first slash stands the first name. -/
theorem segments_of_append_slash {first : List Char} (h : '/' ∉ first) (rest : List Char) :
    segments (first ++ '/' :: rest) = first :: segments rest := by
  induction first with
  | nil => rw [List.nil_append, segments, if_pos rfl]
  | cons c first ih =>
      rw [List.mem_cons, not_or] at h
      rw [List.cons_append, segments, if_neg (Ne.symm h.1), ih h.2]

theorem namesOf_intercalate {first : String} {names : List String}
    (h : ∀ name ∈ first :: names, '/' ∉ name.toList) :
    namesOf ("/".intercalate (first :: names)).toList = first :: names := by
  induction names generalizing first with
  | nil =>
      rw [namesOf, String.intercalate_singleton,
        segments_of_no_slash (h first List.mem_cons_self)]
      simp
  | cons name names ih =>
      obtain ⟨hfirst, hnames⟩ := List.forall_mem_cons.1 h
      have htext : ("/".intercalate (first :: name :: names)).toList =
          first.toList ++ '/' :: ("/".intercalate (name :: names)).toList := by
        rw [String.intercalate_cons_cons, String.toList_append, String.toList_append,
          List.append_assoc]
        rfl
      rw [htext, namesOf, segments_of_append_slash hfirst, List.map_cons, String.ofList_toList]
      exact congrArg _ (ih hnames)

theorem exists_last_slash {text : List Char} (h : '/' ∈ text) :
    ∃ up last, text = up ++ '/' :: last ∧ '/' ∉ last := by
  obtain ⟨last, up, htext, hlast⟩ := List.eq_append_cons_of_mem (List.mem_reverse.2 h)
  refine ⟨up.reverse, last.reverse, ?_, fun hmem => hlast (List.mem_reverse.1 hmem)⟩
  rw [← List.reverse_reverse text, htext]
  simp

theorem splitLast_of_names {path name : String} {above : List String}
    (h : names path = above ++ [name]) (hname : name ≠ "") : splitLast path = (above, name) := by
  simp [splitLast, h, hname]

/-- The last name of a path. -/
def lastName (path : String) : String := (splitLast path).2

/-- A path that does not end in a slash is a name, or a name behind a slash. -/
theorem exists_last {path : String} (hne : path ≠ "") (h : endsInSlash path = false) :
    ∃ last, last ≠ [] ∧ '/' ∉ last ∧
      ((path.toList = last ∧ splitLast path = ([], String.ofList last)) ∨
        ∃ up, path.toList = up ++ '/' :: last ∧
          splitLast path = (namesOf up, String.ofList last)) := by
  have hslash : path.toList.getLast? ≠ some '/' := by simpa [endsInSlash] using h
  by_cases hmem : '/' ∈ path.toList
  · obtain ⟨up, last, htext, hlast⟩ := exists_last_slash hmem
    have hlastne : last ≠ [] := by
      rintro rfl
      apply hslash
      rw [htext, List.getLast?_concat]
    refine ⟨last, hlastne, hlast, .inr ⟨up, htext, splitLast_of_names ?_ ?_⟩⟩
    · rw [names, htext]
      exact namesOf_append_slash up hlast
    · exact fun heq => hlastne (String.ofList_eq_empty_iff.1 heq)
  · have hname : path.toList ≠ [] := fun heq => hne (String.toList_eq_nil_iff.1 heq)
    refine ⟨path.toList, hname, hmem, .inl ⟨rfl, splitLast_of_names ?_ ?_⟩⟩
    · rw [names, segments_of_no_slash hmem]
      rfl
    · exact fun heq => hname (String.ofList_eq_empty_iff.1 heq)

/-- A path that does not end in a slash consists of the names above and the last name. -/
theorem names_eq_splitLast {path : String} (hne : path ≠ "") (h : endsInSlash path = false) :
    names path = (splitLast path).1 ++ [lastName path] := by
  obtain ⟨last, -, hlast, ⟨htext, hsplit⟩ | ⟨up, htext, hsplit⟩⟩ := exists_last hne h
  · rw [lastName, hsplit, names, htext, segments_of_no_slash hlast]
    rfl
  · rw [lastName, hsplit, names, htext]
    exact namesOf_append_slash up hlast

/-! ### The path of the directory above -/

theorem getLast?_trimBack (reversed : List Char) :
    (trimBack reversed).getLast? = reversed.getLast? := by
  fun_induction trimBack reversed with
  | case1 c rest ih => rw [ih, List.getLast?_cons_cons]
  | case2 => rfl
  | case3 rest hrest ih =>
      rw [ih, List.getLast?_cons_cons, List.getLast?_cons_of_ne_nil hrest]
  | case4 => rfl

theorem mem_of_mem_trimBack {reversed : List Char} {c : Char} (h : c ∈ trimBack reversed) :
    c ∈ reversed := by
  fun_induction trimBack reversed with
  | case1 d rest ih => exact List.mem_cons_of_mem _ (ih h)
  | case2 => exact List.mem_cons_of_mem _ h
  | case3 rest hrest ih => exact List.mem_cons_of_mem _ (List.mem_cons_of_mem _ (ih h))
  | case4 => exact h

/-- Nothing is stripped behind a proper name. -/
theorem trimBack_of_name {name rest : List Char} (hne : name ≠ []) (hslash : '/' ∉ name)
    (hdot : name ≠ ['.']) : trimBack (name ++ rest) = name ++ rest := by
  obtain ⟨c, tail, rfl⟩ := List.exists_cons_of_ne_nil hne
  rw [List.mem_cons, not_or] at hslash
  rw [List.cons_append]
  unfold trimBack
  split
  · rename_i heq
    exact absurd (List.cons.inj heq).1.symm hslash.1
  · rename_i heq
    obtain ⟨rfl, htail⟩ := List.cons.inj heq
    cases tail with
    | nil => exact absurd rfl hdot
    | cons d tail => exact absurd (List.cons.inj htail).1 fun hd => hslash.2 (by simp [hd])
  · rfl

/-- What is found above a proper name at the end of a path. -/
theorem parent?_of_name {path : String} {name rest : List Char}
    (htext : path.toList.reverse = name ++ rest) (hne : name ≠ []) (hslash : '/' ∉ name)
    (hdot : name ≠ ['.']) (hrest : rest.dropWhile (· != '/') = rest) :
    parent? path =
      if rest = [] then some "" else some (String.ofList (trimBack rest).reverse) := by
  have hdrop : (name ++ rest).dropWhile (· != '/') = rest := by
    rw [List.dropWhile_append_of_pos, hrest]
    exact fun c hc => bne_iff_ne.2 fun heq => hslash (heq ▸ hc)
  rw [parent?, htext, trimBack_of_name hne hslash hdot]
  split
  · rename_i heq
    exact absurd (List.append_eq_nil_iff.1 heq).1 hne
  · rename_i heq
    -- The name would have to be the slash.
    obtain ⟨c, tail, rfl⟩ := List.exists_cons_of_ne_nil hne
    exact absurd (List.cons.inj heq).1 fun hc => hslash (by simp [hc])
  · rw [hdrop]
    cases rest <;> rfl

theorem directory_of_no_slash {path : String} (hne : path ≠ "") (hslash : '/' ∉ path.toList)
    (hdot : path.toList ≠ ['.']) : directory path = "." := by
  have hparent : parent? path = some "" :=
    parent?_of_name (List.append_nil _).symm
      (fun heq => hne (String.toList_eq_nil_iff.1 (List.reverse_eq_nil_iff.1 heq)))
      (fun hmem => hslash (List.mem_reverse.1 hmem))
      (fun heq => hdot (by rw [← List.reverse_reverse path.toList, heq]; rfl)) rfl
  rw [directory, hparent]
  rfl

theorem directory_of_slash {path : String} {up last : List Char}
    (htext : path.toList = up ++ '/' :: last) (hne : last ≠ []) (hslash : '/' ∉ last)
    (hdot : last ≠ ['.']) :
    directory path = String.ofList (trimBack ('/' :: up.reverse)).reverse := by
  have hreverse : path.toList.reverse = last.reverse ++ '/' :: up.reverse := by
    rw [htext]
    simp
  have hparent := parent?_of_name hreverse (mt List.reverse_eq_nil_iff.1 hne)
    (fun hmem => hslash (List.mem_reverse.1 hmem))
    (fun heq => hdot (by rw [← List.reverse_reverse last, heq]; rfl)) rfl
  rw [if_neg (List.cons_ne_nil _ _)] at hparent
  have habove : (trimBack ('/' :: up.reverse)).reverse ≠ [] := by
    intro heq
    have hlast := getLast?_trimBack ('/' :: up.reverse)
    rw [List.reverse_eq_nil_iff.1 heq, List.getLast?_cons] at hlast
    cases hlast
  rw [directory, hparent]
  split
  · rename_i heq
    cases heq
  · rename_i heq
    exact absurd (String.ofList_eq_empty_iff.1 (Option.some.inj heq)) habove
  · rename_i heq
    exact (Option.some.inj heq).symm

theorem directory_ne_empty (path : String) : directory path ≠ "" := by
  rw [directory]
  split
  · decide
  · decide
  · rename_i above hne hparent
    exact hne

/-- The path of the directory above holds no other characters than a dot and those of the path. -/
theorem mem_of_mem_directory {path : String} (hne : path ≠ "") (h : endsInSlash path = false)
    (hdot : lastName path ≠ ".") {c : Char} (hc : c ∈ (directory path).toList) :
    c = '.' ∨ c ∈ path.toList := by
  obtain ⟨last, hlastne, hlast, hcases⟩ := exists_last hne h
  have hlastdot : last ≠ ['.'] := by
    rintro rfl
    rcases hcases with ⟨-, hsplit⟩ | ⟨up, -, hsplit⟩ <;> exact hdot (by rw [lastName, hsplit])
  rcases hcases with ⟨htext, -⟩ | ⟨up, htext, -⟩
  · rw [directory_of_no_slash hne (htext ▸ hlast) (htext ▸ hlastdot)] at hc
    exact .inl (List.mem_singleton.1 hc)
  · rw [directory_of_slash htext hlastne hlast hlastdot, String.toList_ofList,
      List.mem_reverse] at hc
    right
    rw [htext]
    rcases List.mem_cons.1 (mem_of_mem_trimBack hc) with rfl | hup
    · exact List.mem_append_right _ List.mem_cons_self
    · exact List.mem_append_left _ (List.mem_reverse.1 hup)

/-! ### Joined paths -/

theorem utf8ByteSize_le_join_left (directory : String) {name : String}
    (h : isAbsolute name = false) :
    directory.utf8ByteSize ≤ (join directory name).utf8ByteSize := by
  rw [join, h, if_neg Bool.false_ne_true]
  split
  · rw [String.utf8ByteSize_append]
    exact Nat.le_add_right _ _
  · rw [String.utf8ByteSize_append, String.utf8ByteSize_append, Nat.add_assoc]
    exact Nat.le_add_right _ _

theorem utf8ByteSize_le_join_right (directory name : String) :
    name.utf8ByteSize ≤ (join directory name).utf8ByteSize := by
  rw [join]
  split_ifs
  · exact Nat.le_refl _
  · rw [String.utf8ByteSize_append]
    exact Nat.le_add_left _ _
  · rw [String.utf8ByteSize_append]
    exact Nat.le_add_left _ _

end Path

namespace FileSystem

open TokenAudit.Path

/-- The path of a place from the top. -/
def pathOf (place : Place) : String := "/" ++ "/".intercalate place

/-- The path of a place from the top leads there, whichever the working directory is. -/
theorem locate_pathOf {fs : FileSystem} {place : Place}
    (hnames : ∀ name ∈ place, IsName name ∧ '/' ∉ name.toList)
    (habove : ∀ k < place.length, fs.lookup (place.take k) = some .directory)
    (hshort : (pathOf place).utf8ByteSize ≤ Path.maxLength) :
    fs.locate (pathOf place) = .ok place := by
  have htop : fs.lookup [] = some .directory := lookup_of_stands (stands_nil fs)
  have htext : (pathOf place).toList = '/' :: ("/".intercalate place).toList := by
    rw [pathOf, String.toList_append]
    rfl
  have hne : pathOf place ≠ "" := by
    intro heq
    rw [heq] at htext
    cases htext
  have hstart : fs.start (pathOf place) = [] := by
    rw [start, isAbsolute, htext]
    rfl
  have hfollow : fs.follow [] (names (pathOf place)) =
      fs.follow [] (namesOf ("/".intercalate place).toList) := by
    rw [names, htext, segments, if_pos rfl, List.map_cons]
    exact follow_cons_of_stay htop (.inl rfl) _
  rw [locate, if_neg hne, if_neg (Nat.not_lt.2 hshort), hstart, hfollow]
  cases place with
  | nil => exact follow_cons_of_stay htop (.inl rfl) []
  | cons first others =>
      rw [namesOf_intercalate fun name hname => (hnames name hname).2]
      exact follow_of_names (fun name hname => (hnames name hname).1) habove

/-- Stripping slashes and names `.` from the end of a path leads to the same directory. -/
theorem follow_trimBack_iff {fs : FileSystem} {place directory : Place}
    (hdirectory : fs.lookup directory = some .directory) (reversed : List Char) :
    fs.follow place (namesOf (trimBack reversed).reverse) = .ok directory ↔
      fs.follow place (namesOf reversed.reverse) = .ok directory := by
  have hslash (up : List Char) :
      fs.follow place (namesOf (up ++ ['/'])) = .ok directory ↔
        fs.follow place (namesOf up) = .ok directory := by
    rw [namesOf_append_slash up List.not_mem_nil]
    exact follow_concat_stay_iff (.inl rfl) hdirectory
  have hdot (up : List Char) :
      fs.follow place (namesOf (up ++ ['/', '.'])) = .ok directory ↔
        fs.follow place (namesOf up) = .ok directory := by
    rw [namesOf_append_slash up (by simp)]
    exact follow_concat_stay_iff (.inr rfl) hdirectory
  fun_induction trimBack reversed with
  | case1 c rest ih =>
      have hstep := hslash (c :: rest).reverse
      rw [← List.reverse_cons] at hstep
      exact ih.trans hstep.symm
  | case2 => exact (hslash []).trans (hdot []).symm
  | case3 rest hrest ih =>
      have hstep := hdot rest.reverse
      rw [← List.reverse_reverse ['/', '.'], ← List.reverse_append] at hstep
      exact ih.trans hstep.symm
  | case4 => rfl

/-- The path of the directory above leads to the directory to which the names above lead. -/
theorem follow_directory_iff {fs : FileSystem} {path : String} {directory : Place}
    (hne : path ≠ "") (hslash : endsInSlash path = false) (hdot : lastName path ≠ ".")
    (hdirectory : fs.lookup directory = some .directory) :
    fs.follow (fs.start (Path.directory path)) (names (Path.directory path)) = .ok directory ↔
      fs.follow (fs.start path) (splitLast path).1 = .ok directory := by
  obtain ⟨last, hlastne, hlast, hcases⟩ := exists_last hne hslash
  have hlastdot : last ≠ ['.'] := by
    rintro rfl
    rcases hcases with ⟨-, hsplit⟩ | ⟨up, -, hsplit⟩ <;> exact hdot (by rw [lastName, hsplit])
  rcases hcases with ⟨htext, hsplit⟩ | ⟨up, htext, hsplit⟩
  · have hrelative : isAbsolute path = false := by
      rw [isAbsolute, htext, beq_eq_false_iff_ne]
      intro hhead
      exact hlast (List.mem_of_head? hhead)
    rw [directory_of_no_slash hne (htext ▸ hlast) (htext ▸ hlastdot), hsplit, start, start,
      hrelative]
    have hhere : isAbsolute "." = false := rfl
    rw [hhere]
    exact @follow_concat_stay_iff fs fs.here directory [] "." (.inr rfl) hdirectory
  · have hsame : isAbsolute (Path.directory path) = isAbsolute path := by
      rw [isAbsolute, isAbsolute, directory_of_slash htext hlastne hlast hlastdot,
        String.toList_ofList, List.head?_reverse, getLast?_trimBack, ← List.head?_reverse,
        List.reverse_cons, List.reverse_reverse, htext]
      cases up <;> rfl
    have hstart : fs.start (Path.directory path) = fs.start path := by
      rw [start, start, hsame]
    have hnames : names (Path.directory path) =
        namesOf (trimBack ('/' :: up.reverse)).reverse := by
      rw [directory_of_slash htext hlastne hlast hlastdot, names, String.toList_ofList]
      rfl
    rw [hstart, hnames, hsplit, follow_trimBack_iff hdirectory, List.reverse_cons,
      List.reverse_reverse, namesOf_append_slash up List.not_mem_nil]
    exact follow_concat_stay_iff (.inl rfl) hdirectory

end FileSystem

end TokenAudit

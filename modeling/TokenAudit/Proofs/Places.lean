import Mathlib.Data.List.Basic
import TokenAudit.FileSystem.Temporary

/-!
# Places and the names that lead to them

What stands at a place after something was put there or taken away, and where names lead.  Following
names looks at nothing but the directories on the way, so two file systems with the same directories
follow alike.

* `found?_insert`, `found?_erase`: a change of one place is seen there and nowhere else.
* `follow_append`, `exists_follow_of_append`: names are followed one after the other.
* `follow_of_names`: proper names lead down to the place that they make up.
-/

namespace TokenAudit

namespace FileSystem

/-! ### Single places -/

theorem lookup_filter_ne (entries : List (Place × Entry)) (place other : Place) :
    (entries.filter fun entry => entry.1 != place).lookup other =
      if other = place then none else entries.lookup other := by
  induction entries with
  | nil => simp
  | cons entry entries ih =>
      obtain ⟨held, entry⟩ := entry
      -- An entry for the place is filtered out, and any other entry stays where it is.
      by_cases hheld : held = place
      · subst hheld
        rw [List.filter_cons_of_neg (by simp), ih]
        by_cases heq : other = held
        · rw [if_pos heq, if_pos heq]
        · have hbeq : (other == held) = false := beq_eq_false_iff_ne.2 heq
          rw [if_neg heq, if_neg heq, List.lookup_cons, hbeq]
      · rw [List.filter_cons_of_pos (by simpa using hheld), List.lookup_cons, ih, List.lookup_cons]
        by_cases heq : other = held
        · have hne : other ≠ place := fun h => hheld (heq.symm.trans h)
          rw [if_neg hne, if_neg hne]
        · have hbeq : (other == held) = false := beq_eq_false_iff_ne.2 heq
          rw [hbeq]

/-- A place at or above the working directory. -/
def Stands (fs : FileSystem) (place : Place) : Prop := place.isPrefixOf fs.here = true

theorem found?_of_stands {fs : FileSystem} {place : Place} (h : fs.Stands place) :
    fs.found? place = some { node := .directory } := if_pos h

theorem found?_of_not_stands {fs : FileSystem} {place : Place} (h : ¬ fs.Stands place) :
    fs.found? place = fs.entries.lookup place := if_neg h

theorem lookup_of_stands {fs : FileSystem} {place : Place} (h : fs.Stands place) :
    fs.lookup place = some .directory := by
  rw [lookup, found?_of_stands h]
  rfl

theorem stands_nil (fs : FileSystem) : fs.Stands [] := rfl

/-- Taking away what stands at a place changes that place only. -/
theorem found?_erase {fs : FileSystem} {place : Place} (hplace : ¬ fs.Stands place)
    (other : Place) :
    (fs.erase place).found? other = if other = place then none else fs.found? other := by
  by_cases hother : fs.Stands other
  · have hne : other ≠ place := fun heq => hplace (heq ▸ hother)
    rw [if_neg hne, found?_of_stands hother]
    exact found?_of_stands hother
  · rw [found?_of_not_stands hother, ← lookup_filter_ne]
    exact found?_of_not_stands hother

/-- Putting something at a place changes that place only. -/
theorem found?_insert {fs : FileSystem} {place : Place} (hplace : ¬ fs.Stands place) (node : Node)
    (other : Place) :
    (fs.insert place node).found? other =
      if other = place then some { node } else fs.found? other := by
  by_cases hother : fs.Stands other
  · have hne : other ≠ place := fun heq => hplace (heq ▸ hother)
    rw [if_neg hne, found?_of_stands hother]
    exact found?_of_stands hother
  · have hentry : (fs.insert place node).found? other =
        ((place, { node }) :: (fs.erase place).entries).lookup other := if_neg hother
    rw [hentry, found?_of_not_stands hother]
    by_cases heq : other = place
    · rw [if_pos heq, heq, List.lookup_cons_self]
    · have hbeq : (other == place) = false := beq_eq_false_iff_ne.2 heq
      rw [if_neg heq, List.lookup_cons, hbeq]
      exact (lookup_filter_ne _ _ _).trans (if_neg heq)

theorem lookup_insert {fs : FileSystem} {place : Place} (hplace : ¬ fs.Stands place) (node : Node)
    (other : Place) :
    (fs.insert place node).lookup other = if other = place then some node else fs.lookup other := by
  rw [lookup, found?_insert hplace]
  split <;> rfl

/-- What is put at a place replaces what was put there. -/
theorem insert_insert (fs : FileSystem) (place : Place) (node other : Node) :
    (fs.insert place node).insert place other = fs.insert place other := by
  simp [insert, erase]

/-- What is put at a place without an entry is taken away without a trace. -/
theorem erase_insert {fs : FileSystem} {place : Place} (node : Node)
    (hfree : ∀ entry ∈ fs.entries, entry.1 ≠ place) : (fs.insert place node).erase place = fs := by
  have hkept : (fs.entries.filter fun entry => entry.1 != place) = fs.entries :=
    List.filter_eq_self.2 fun entry hentry => bne_iff_ne.2 (hfree entry hentry)
  simp [insert, erase, hkept]

/-! ### Names of temporary files -/

theorem length_starName (stars : Nat) : (starName stars).length = 4 + stars := by
  show (String.ofList (".tmp".toList ++ List.replicate stars '*')).length = _
  rw [String.length_ofList, List.length_append, List.length_replicate]
  rfl

theorem le_foldl_max (lengths : List Nat) (bound : Nat) :
    bound ≤ lengths.foldl max bound ∧ ∀ n ∈ lengths, n ≤ lengths.foldl max bound := by
  induction lengths generalizing bound with
  | nil => simp
  | cons m lengths ih =>
      obtain ⟨hbound, hall⟩ := ih (max bound m)
      rw [List.foldl_cons, List.forall_mem_cons]
      exact ⟨by omega, by omega, hall⟩

/-- The name of a temporary file leads nowhere yet. -/
theorem temporaryName_not_mem (fs : FileSystem) :
    fs.temporaryName ∉ fs.here ++ fs.entries.flatMap Prod.fst := by
  unfold temporaryName
  dsimp only
  split
  · intro hmem
    -- The name has more characters than any that is taken.
    have hlength := (le_foldl_max
      ((fs.here ++ fs.entries.flatMap Prod.fst).map String.length) 0).2 _ (List.mem_map_of_mem hmem)
    rw [length_starName] at hlength
    omega
  · assumption

/-- A new place for a temporary file in a directory. -/
def temporaryIn (fs : FileSystem) (directory : Place) : Place := directory ++ [fs.temporaryName]

theorem not_stands_temporaryIn (fs : FileSystem) (directory : Place) :
    ¬ fs.Stands (fs.temporaryIn directory) := by
  intro hstands
  obtain ⟨rest, hrest⟩ := List.isPrefixOf_iff_prefix.1 hstands
  apply fs.temporaryName_not_mem
  rw [← hrest]
  simp [temporaryIn]

theorem ne_temporaryIn_of_mem_entries {fs : FileSystem} (directory : Place)
    {entry : Place × Entry} (h : entry ∈ fs.entries) : entry.1 ≠ fs.temporaryIn directory := by
  intro heq
  apply fs.temporaryName_not_mem
  refine List.mem_append_right _ (List.mem_flatMap.2 ⟨entry, h, ?_⟩)
  rw [heq]
  simp [temporaryIn]

/-- Nothing stands where a temporary file is created. -/
theorem found?_temporaryIn (fs : FileSystem) (directory : Place) :
    fs.found? (fs.temporaryIn directory) = none := by
  rw [found?_of_not_stands (fs.not_stands_temporaryIn directory), List.lookup_eq_none_iff]
  exact fun entry hentry => bne_iff_ne.2 (ne_temporaryIn_of_mem_entries directory hentry).symm

theorem lookup_temporaryIn (fs : FileSystem) (directory : Place) :
    fs.lookup (fs.temporaryIn directory) = none := by
  rw [lookup, found?_temporaryIn]
  rfl

/-- A temporary file is taken away without a trace. -/
theorem erase_insert_temporaryIn (fs : FileSystem) (directory : Place) (node : Node) :
    (fs.insert (fs.temporaryIn directory) node).erase (fs.temporaryIn directory) = fs :=
  erase_insert node fun _ hentry => ne_temporaryIn_of_mem_entries directory hentry

/-! ### Following names -/

/-- A name that something in a directory can have. -/
def IsName (name : String) : Prop :=
  name ≠ "" ∧ name ≠ "." ∧ name ≠ ".." ∧ name.utf8ByteSize ≤ maxNameLength

/-- Following a name takes a directory and leads to a place that depends on nothing else. -/
theorem exists_inner_of_follow_cons {fs : FileSystem} {place target : Place} {name : String}
    {names : List String} (h : fs.follow place (name :: names) = .ok target) :
    fs.lookup place = some .directory ∧ ∃ inner, fs.follow inner names = .ok target ∧
      ∀ files : FileSystem, files.lookup place = some .directory →
        ∀ others, files.follow place (name :: others) = files.follow inner others := by
  rw [follow] at h
  split at h
  · cases h
  · cases h
  · rename_i hplace
    refine ⟨hplace, ?_⟩
    split_ifs at h with hstay hup hlong
    · refine ⟨place, h, fun files hfiles others => ?_⟩
      rw [follow, hfiles]
      exact if_pos hstay
    · refine ⟨place.dropLast, h, fun files hfiles others => ?_⟩
      simp only [follow, hfiles, if_neg hstay, if_pos hup]
    · refine ⟨place ++ [name], h, fun files hfiles others => ?_⟩
      simp only [follow, hfiles, if_neg hstay, if_neg hup, if_neg hlong]

/-- Following names is not changed by what happens to places that are no directories. -/
theorem follow_of_directories {fs files : FileSystem}
    (h : ∀ place, fs.lookup place = some .directory → files.lookup place = some .directory)
    {place target : Place} {names : List String} (hfollow : fs.follow place names = .ok target) :
    files.follow place names = .ok target := by
  induction names generalizing place with
  | nil => exact hfollow
  | cons name names ih =>
      obtain ⟨hplace, inner, hinner, hstep⟩ := exists_inner_of_follow_cons hfollow
      rw [hstep files (h place hplace)]
      exact ih hinner

theorem follow_append {fs : FileSystem} {place middle : Place} {names : List String}
    (h : fs.follow place names = .ok middle) (others : List String) :
    fs.follow place (names ++ others) = fs.follow middle others := by
  induction names generalizing place with
  | nil =>
      cases h
      rfl
  | cons name names ih =>
      obtain ⟨hplace, inner, hinner, hstep⟩ := exists_inner_of_follow_cons h
      rw [List.cons_append, hstep fs hplace]
      exact ih hinner

theorem exists_follow_of_append {fs : FileSystem} {place target : Place} {names others : List String}
    (h : fs.follow place (names ++ others) = .ok target) :
    ∃ middle, fs.follow place names = .ok middle ∧ fs.follow middle others = .ok target := by
  induction names generalizing place with
  | nil => exact ⟨place, rfl, h⟩
  | cons name names ih =>
      obtain ⟨hplace, inner, hinner, hstep⟩ := exists_inner_of_follow_cons h
      obtain ⟨middle, hmiddle, hothers⟩ := ih hinner
      exact ⟨middle, (hstep fs hplace names).trans hmiddle, hothers⟩

theorem follow_cons_of_stay {fs : FileSystem} {place : Place} {name : String}
    (hplace : fs.lookup place = some .directory) (hname : name = "" ∨ name = ".")
    (names : List String) : fs.follow place (name :: names) = fs.follow place names := by
  rw [follow, hplace]
  exact if_pos hname

theorem follow_cons_of_isName {fs : FileSystem} {place : Place} {name : String}
    (hplace : fs.lookup place = some .directory) (hname : IsName name) (names : List String) :
    fs.follow place (name :: names) = fs.follow (place ++ [name]) names := by
  obtain ⟨hempty, hdot, hdots, hshort⟩ := hname
  simp only [follow, hplace, hempty, hdot, hdots, or_self, if_false, Nat.not_lt.2 hshort]

/-- A name that stays may stand or be missing at the end, in a directory. -/
theorem follow_concat_stay_iff {fs : FileSystem} {place directory : Place} {names : List String}
    {name : String} (hname : name = "" ∨ name = ".")
    (hdirectory : fs.lookup directory = some .directory) :
    fs.follow place (names ++ [name]) = .ok directory ↔ fs.follow place names = .ok directory := by
  constructor
  · intro h
    obtain ⟨middle, hmiddle, hstay⟩ := exists_follow_of_append h
    obtain ⟨hplace, -⟩ := exists_inner_of_follow_cons hstay
    rw [follow_cons_of_stay hplace hname] at hstay
    cases hstay
    exact hmiddle
  · intro h
    rw [follow_append h, follow_cons_of_stay hdirectory hname]
    rfl

/-- Proper names lead down through directories. -/
theorem follow_of_names {fs : FileSystem} {place : Place} {names : List String}
    (hnames : ∀ name ∈ names, IsName name)
    (habove : ∀ k < names.length, fs.lookup (place ++ names.take k) = some .directory) :
    fs.follow place names = .ok (place ++ names) := by
  induction names generalizing place with
  | nil => rw [follow, List.append_nil]
  | cons name names ih =>
      obtain ⟨hname, hnames⟩ := List.forall_mem_cons.1 hnames
      have hplace : fs.lookup place = some .directory := by
        simpa using habove 0 (Nat.succ_pos _)
      rw [follow_cons_of_isName hplace hname, ih hnames, List.append_assoc]
      · rfl
      · intro k hk
        simpa using habove (k + 1) (Nat.succ_lt_succ hk)

end FileSystem

end TokenAudit

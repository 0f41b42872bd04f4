import TokenAudit.Proofs.KeyedEntries
import TokenAudit.Settings.Basic

/-!
# Places of settings

A key of names and dots leads to a place below the root table.  Storing a value under a key changes
nothing but what lies under its first name, and storing a plain value for a member of a group of
settings changes no other member.

* `Key.parse_dotted`: a text of names with dots between them is read as these names.
* `Value.field?_assign_of_ne`: what is stored under another first name is not seen.
* `Value.setting?_assign_memberKey`: what is stored for one member is seen there and nowhere else.
-/

namespace TokenAudit

namespace Text

/-! ### Lower case in ASCII -/

/-- A text with its ASCII capitals as small letters. -/
def asciiLower (s : String) : String := String.ofList (s.toList.map Char.toLower)

theorem lowerForm_eq_toLower {c : Char} (h : c.toNat < 0x80) :
    (if 'A' ≤ c && c ≤ 'Z' then Char.ofNat (c.toNat + 0x20) else c) = c.toLower := by
  have hall : ∀ n < 0x80, (if 'A' ≤ Char.ofNat n && Char.ofNat n ≤ 'Z' then
      Char.ofNat ((Char.ofNat n).toNat + 0x20) else Char.ofNat n) = (Char.ofNat n).toLower := by
    decide
  have hc := hall c.toNat h
  rwa [Char.ofNat_toNat] at hc

theorem toLower_of_not_ascii {c : Char} (h : 0x80 ≤ c.toNat) : c.toLower = c := by
  have hother : ¬ (c.val ≥ 'A'.val ∧ c.val ≤ 'Z'.val) := fun hcapital => by
    have hle : c.toNat ≤ 90 := UInt32.le_iff_toNat_le.1 hcapital.2
    omega
  exact dif_neg hother

theorem lowerFrom_of_ascii {before text : List Char} (h : ∀ c ∈ text, c.toNat < 0x80) :
    lowerFrom before text = text.map Char.toLower := by
  induction text generalizing before with
  | nil => rfl
  | cons c text ih =>
      obtain ⟨hc, htext⟩ := List.forall_mem_cons.1 h
      rw [lowerFrom, if_pos hc, lowerForm_eq_toLower hc, ih htext]
      rfl

/-- In ASCII the full mapping of letters is the one of the capitals A to Z. -/
theorem lowerCase_of_ascii {s : String} (h : ∀ c ∈ s.toList, c.toNat < 0x80) :
    lowerCase s = asciiLower s := by
  rw [lowerCase, lowerFrom_of_ascii h, asciiLower]

/-- A text with an ASCII lower-case form is ASCII itself. -/
theorem lowerCase_of_asciiLower_eq {s name : String} (h : asciiLower s = name)
    (hname : ∀ c ∈ name.toList, c.toNat < 0x80) : lowerCase s = name := by
  rw [← h]
  refine lowerCase_of_ascii fun c hc => ?_
  have hlower : c.toLower ∈ name.toList := by
    rw [← h, asciiLower, String.toList_ofList]
    exact List.mem_map_of_mem hc
  rcases Nat.lt_or_ge c.toNat 0x80 with hsmall | hlarge
  · exact hsmall
  · rw [toLower_of_not_ascii hlarge] at hlower
    exact hname c hlower

end Text

namespace Settings

/-! ### Keys of names and dots -/

/-- A name as it may stand in a key. -/
def IsName (name : String) : Prop := name ≠ "" ∧ ∀ c ∈ name.toList, Key.isNamePart c = true

instance (name : String) : Decidable (IsName name) :=
  decidable_of_iff (name ≠ "" ∧ name.toList.all Key.isNamePart = true)
    (and_congr_right fun _ => List.all_eq_true)

theorem IsName.ascii {name : String} (h : IsName name) : ∀ c ∈ name.toList, c.toNat < 0x80 := by
  intro c hc
  have hpart := h.2 c hc
  simp only [Key.isNamePart, Bool.or_eq_true, Bool.and_eq_true, decide_eq_true_eq, beq_iff_eq,
    Char.le_def, UInt32.le_iff_toNat_le] at hpart
  rcases hpart with ((((⟨-, h⟩ | ⟨-, h⟩) | ⟨-, h⟩) | rfl) | rfl) | rfl
  · exact Nat.lt_of_le_of_lt h (by decide)
  · exact Nat.lt_of_le_of_lt h (by decide)
  · exact Nat.lt_of_le_of_lt h (by decide)
  all_goals decide

theorem IsName.exists_cons {name : String} (h : IsName name) : ∃ c cs, name.toList = c :: cs :=
  List.exists_cons_of_ne_nil fun heq => h.1 (String.toList_eq_nil_iff.1 heq)

namespace Key

/-- The text of steps to named parts. -/
def dotted (names : List String) : List Char := names.flatMap fun name => '.' :: name.toList

theorem toList_intercalate_dot (first : String) (names : List String) :
    (".".intercalate (first :: names)).toList = first.toList ++ dotted names := by
  induction names generalizing first with
  | nil => simp [dotted]
  | cons name names ih =>
      rw [String.intercalate_cons_cons, String.toList_append, String.toList_append, ih]
      simp [dotted]

/-- A name is taken up to the dot behind it. -/
theorem takeWhile_name {name : String} (h : IsName name) (names : List String) :
    (name.toList ++ dotted names).takeWhile isNamePart = name.toList := by
  rw [List.takeWhile_append_of_pos h.2]
  cases names with
  | nil => simp [dotted]
  | cons other names => simp [dotted, isNamePart]

theorem dropWhile_name {name : String} (h : IsName name) (names : List String) :
    (name.toList ++ dotted names).dropWhile isNamePart = dotted names := by
  rw [List.dropWhile_append_of_pos h.2]
  cases names with
  | nil => simp [dotted]
  | cons other names => simp [dotted, isNamePart]

theorem length_le_length_dotted (names : List String) : names.length ≤ (dotted names).length := by
  induction names with
  | nil => exact Nat.le_refl _
  | cons name names ih =>
      rw [dotted, List.flatMap_cons, List.length_append, List.length_cons, List.length_cons, ← dotted]
      omega

theorem parseSteps_dotted {names : List String} (h : ∀ name ∈ names, IsName name) {n : Nat}
    (hn : names.length ≤ n) : parseSteps n (dotted names) = .ok (names.map .field) := by
  induction names generalizing n with
  | nil => cases n <;> rfl
  | cons name names ih =>
      obtain ⟨hname, hnames⟩ := List.forall_mem_cons.1 h
      cases n with
      | zero => cases hn
      | succ n =>
          obtain ⟨c, cs, hcs⟩ := hname.exists_cons
          change parseSteps (n + 1) ('.' :: (name.toList ++ dotted names)) = _
          rw [parseSteps, takeWhile_name hname, dropWhile_name hname, hcs,
            ih hnames (Nat.le_of_succ_le_succ hn)]
          change Except.ok (Step.field (String.ofList (c :: cs)) :: names.map .field) = _
          rw [← hcs, String.ofList_toList]
          rfl

/-- A text of names with dots between them is read as the way along these names. -/
theorem parse_dotted {first : String} {names : List String}
    (h : ∀ name ∈ first :: names, IsName name) :
    parse (".".intercalate (first :: names)) = .ok ⟨first, names.map .field⟩ := by
  obtain ⟨hfirst, hnames⟩ := List.forall_mem_cons.1 h
  obtain ⟨c, cs, hcs⟩ := hfirst.exists_cons
  have hlength : names.length ≤ (first.toList ++ dotted names).length := by
    have := length_le_length_dotted names
    rw [List.length_append]
    omega
  rw [parse, toList_intercalate_dot, takeWhile_name hfirst, dropWhile_name hfirst,
    parseSteps_dotted hnames hlength, hcs]
  change Except.ok (Key.mk (String.ofList (c :: cs)) (names.map .field)) = _
  rw [← hcs, String.ofList_toList]

end Key

/-! ### Parts of a root table -/

namespace Value

theorem setField_eq (v : Value) (name : String) (value : Value) :
    v.setField name value = .table (entered v.fields name value) := by
  rw [setField, entered]
  split <;> rfl

theorem field?_setField_self (v : Value) (name : String) (value : Value) :
    (v.setField name value).field? name = some value := by
  rw [setField_eq]
  exact lookup_entered_self v.fields name value

theorem field?_setField_of_ne (v : Value) {name other : String} (value : Value)
    (h : other ≠ name) : (v.setField name value).field? other = v.field? other := by
  rw [setField_eq]
  exact lookup_entered_of_ne v.fields value h

/-- A value that is no table takes the place of the old one. -/
def IsPlain (value : Value) : Prop := ∀ fields, value ≠ .table fields

theorem put_of_isPlain (v : Value) (name : String) {value : Value} (h : value.IsPlain) :
    v.put name value = v.setField (Text.lowerCase name) value := by
  cases value with
  | table fields => exact absurd rfl (h fields)
  | _ => rfl

theorem field?_put_of_ne (v : Value) {name other : String} (value : Value)
    (h : other ≠ Text.lowerCase name) : (v.put name value).field? other = v.field? other := by
  cases value with
  | table fields =>
      rw [put]
      exact field?_setField_of_ne v _ h
  | _ => exact field?_setField_of_ne v _ h

/-- What is stored under another first name is not seen. -/
theorem field?_assign_of_ne (root : Value) {key : Key} {name : String} (value : Value)
    (h : name ≠ Text.lowerCase key.name) : (key.assign root value).field? name = root.field? name := by
  rw [Key.assign]
  cases hsteps : key.steps with
  | nil => exact field?_put_of_ne root value h
  | cons step steps => exact field?_setField_of_ne root _ h

/-- The value of a member of a group, in a root table where the group is a table. -/
def setting? (root : Value) (group : Group) (name : String) : Option Value :=
  (root.field? group.key).bind (·.field? name)

end Value

/-- The key of a member of a group. -/
def Group.memberKey (group : Group) (name : String) : Key := ⟨group.key, [.field name]⟩

theorem Group.lowerCase_key (group : Group) : Text.lowerCase group.key = group.key := by
  cases group <;> rfl

theorem Group.lowerCase_of_mem_members {group : Group} {name : String} (h : name ∈ group.members) :
    Text.lowerCase name = name := by
  cases group with
  | trace =>
      obtain rfl := List.mem_singleton.1 h
      rfl
  | logging =>
      rcases List.mem_cons.1 h with rfl | h
      · rfl
      · obtain rfl := List.mem_singleton.1 h
        rfl

theorem Group.key_injective {group other : Group} (h : group.key = other.key) : group = other := by
  cases group <;> cases other <;> simp_all [Group.key]

namespace Value

theorem assign_memberKey (root : Value) {group : Group} {name : String} {value : Value}
    (hname : name ∈ group.members) (hvalue : value.IsPlain) :
    (group.memberKey name).assign root value =
      root.setField group.key (((root.field? group.key).getD .nothing).setField name value) := by
  change root.setField (Text.lowerCase group.key)
    (((root.field? (Text.lowerCase group.key)).getD .nothing).put name value) = _
  rw [put_of_isPlain _ _ hvalue, group.lowerCase_key, Group.lowerCase_of_mem_members hname]

/-- What is stored for a member is seen there. -/
theorem setting?_assign_memberKey_self (root : Value) {group : Group} {name : String} {value : Value}
    (hname : name ∈ group.members) (hvalue : value.IsPlain) :
    ((group.memberKey name).assign root value).setting? group name = some value := by
  rw [setting?, assign_memberKey root hname hvalue, field?_setField_self, Option.bind_some,
    field?_setField_self]

/-- What is stored for a member is seen for no other. -/
theorem setting?_assign_memberKey_of_ne (root : Value) {group other : Group}
    {name otherName : String} {value : Value} (hname : name ∈ group.members)
    (hvalue : value.IsPlain) (h : other.memberKey otherName ≠ group.memberKey name) :
    ((group.memberKey name).assign root value).setting? other otherName =
      root.setting? other otherName := by
  rw [setting?, setting?, assign_memberKey root hname hvalue]
  by_cases hgroup : other = group
  · subst hgroup
    have hother : otherName ≠ name := fun heq => h (congrArg other.memberKey heq)
    rw [field?_setField_self, Option.bind_some, field?_setField_of_ne _ _ hother]
    cases root.field? other.key <;> rfl
  · rw [field?_setField_of_ne _ _ fun heq => hgroup (Group.key_injective heq)]

end Value

end Settings

end TokenAudit

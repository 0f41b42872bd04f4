import Mathlib.Data.List.Induction
import TokenAudit.Proofs.SettingPlaces

/-!
# Stored overrides

Overrides name a setting with a value of its kind, or they are of something else and may hold any
value.  They are stored by key, and an override takes the place of an earlier one for the same key.

* `Override.key_eq_iff`: two overrides have the same key as they are written if and only if they
  have the same one as it is read.
* `Overrides.setAll_entries`: all of them are stored.
* `Overrides.lookup_after`: what is stored for a key is the value of its last override.
-/

namespace TokenAudit.Settings

/-- An override as it should be: a setting by its key with a value of its kind, or any value under a
first name that is no group of settings. -/
inductive Override where
  /-- Whether the diagnostic trace is written. -/
  | flag (b : Bool)
  /-- How much is logged, with the name of a level in any case. -/
  | level (level : Log.Level) (name : String) (named : Text.asciiLower name = level.name)
  /-- How it is logged, with the name of a layout in any case. -/
  | layout (layout : Log.Layout) (name : String) (named : Text.asciiLower name = layout.name)
  /-- Something that is no setting, under names with dots between them. -/
  | foreign (first : String) (names : List String) (areNames : ∀ name ∈ first :: names, IsName name)
    (outside : ∀ group : Group, Text.asciiLower first ≠ group.key) (value : Value)

namespace Override

/-- The key of an override as it is written. -/
def key : Override → String
  | flag _ => "trace.enabled"
  | level .. => "logging.level"
  | layout .. => "logging.format"
  | foreign first names .. => ".".intercalate (first :: names)

/-- The value of an override. -/
def value : Override → Value
  | flag b => .flag b
  | level _ name _ => .text name
  | layout _ name _ => .text name
  | foreign _ _ _ _ value => value

/-- An override as it is handed in. -/
def entry (o : Override) : String × Value := (o.key, o.value)

/-- An override is of no setting. -/
def IsForeign : Override → Prop
  | foreign .. => True
  | _ => False

/-- The flag of an override of the trace. -/
def flag? : Override → Option Bool
  | flag b => some b
  | _ => none

/-- The level of an override of how much is logged. -/
def level? : Override → Option Log.Level
  | level l _ _ => some l
  | _ => none

/-- The layout of an override of how it is logged. -/
def layout? : Override → Option Log.Layout
  | layout l _ _ => some l
  | _ => none

/-- The last override of a key. -/
def last? (key : String) (overrides : List Override) : Option Override :=
  (overrides.filter (·.key == key)).getLast?

/-! ### Keys of overrides -/

/-- The key of an override as it is read. -/
def path : Override → Key
  | flag _ => Group.trace.memberKey "enabled"
  | level .. => Group.logging.memberKey "level"
  | layout .. => Group.logging.memberKey "format"
  | foreign first names .. => ⟨first, names.map .field⟩

theorem parse_key (o : Override) : Key.parse o.key = .ok o.path := by
  cases o with
  | flag b =>
      change Key.parse "trace.enabled" = _
      rfl
  | level level name named =>
      change Key.parse "logging.level" = _
      rfl
  | layout layout name named =>
      change Key.parse "logging.format" = _
      rfl
  | foreign first names areNames outside value => exact Key.parse_dotted areNames

/-- A key is written in one way only. -/
theorem exists_names (o : Override) : ∃ names : List String,
    o.path.steps = names.map .field ∧ o.key = ".".intercalate (o.path.name :: names) := by
  cases o with
  | flag b => exact ⟨["enabled"], rfl, rfl⟩
  | level level name named => exact ⟨["level"], rfl, rfl⟩
  | layout layout name named => exact ⟨["format"], rfl, rfl⟩
  | foreign first names areNames outside value => exact ⟨names, rfl, rfl⟩

theorem key_eq_iff (o other : Override) : o.key = other.key ↔ o.path = other.path := by
  constructor
  · intro h
    have hparse := o.parse_key
    rw [h, other.parse_key] at hparse
    exact (Except.ok.inj hparse).symm
  · intro h
    obtain ⟨names, hsteps, hkey⟩ := o.exists_names
    obtain ⟨names', hsteps', hkey'⟩ := other.exists_names
    have hmap : names.map Step.field = names'.map Step.field := by rw [← hsteps, ← hsteps', h]
    have hnames : names = names' :=
      (List.map_inj_right fun a b hab => Step.field.inj hab).1 hmap
    rw [hkey, hkey', h, hnames]

/-- What is foreign is under another name than a group, in whichever case it is written. -/
theorem groupKey_ne_of_isForeign {o : Override} (h : o.IsForeign) (group : Group) :
    group.key ≠ Text.lowerCase o.path.name := by
  cases o with
  | foreign first names areNames outside value =>
      have hlower : Text.lowerCase first = Text.asciiLower first :=
        Text.lowerCase_of_ascii (areNames first List.mem_cons_self).ascii
      exact fun heq => outside group (hlower.symm.trans heq.symm)
  | _ => exact absurd h id

theorem not_isForeign_of_path {o : Override} {group : Group} {name : String}
    (h : o.path = group.memberKey name) : ¬ o.IsForeign := by
  intro hforeign
  apply groupKey_ne_of_isForeign hforeign group
  rw [h]
  exact group.lowerCase_key.symm

/-- What is not foreign leads to a member of a group. -/
theorem exists_path_eq {o : Override} (h : ¬ o.IsForeign) :
    ∃ group : Group, ∃ name ∈ group.members, o.path = group.memberKey name := by
  cases o with
  | flag b => exact ⟨.trace, "enabled", by decide, rfl⟩
  | level l written named => exact ⟨.logging, "level", by decide, rfl⟩
  | layout l written named => exact ⟨.logging, "format", by decide, rfl⟩
  | foreign => exact absurd trivial h

theorem isPlain_value {o : Override} (h : ¬ o.IsForeign) : o.value.IsPlain := by
  cases o with
  | foreign => exact absurd trivial h
  | _ => exact fun fields => nofun

/-! ### The last override of a key -/

theorem last?_append (key : String) (earlier later : List Override) :
    last? key (earlier ++ later) = (last? key later).or (last? key earlier) := by
  rw [last?, List.filter_append, List.getLast?_append]
  rfl

theorem last?_singleton_self (o : Override) : last? o.key [o] = some o := by
  simp [last?]

theorem last?_singleton_of_ne {o : Override} {key : String} (h : o.key ≠ key) :
    last? key [o] = none := by
  simp [last?, h]

theorem key_of_last? {key : String} {overrides : List Override} {o : Override}
    (h : last? key overrides = some o) : o.key = key := by
  have hmem := List.mem_of_getLast? h
  exact beq_iff_eq.1 (List.mem_filter.1 hmem).2

theorem exists_last?_of_mem {overrides : List Override} {o : Override} (h : o ∈ overrides) :
    ∃ last, last? o.key overrides = some last := by
  refine Option.isSome_iff_exists.1 (List.getLast?_isSome.2 ?_)
  exact List.ne_nil_of_mem (List.mem_filter.2 ⟨h, beq_self_eq_true o.key⟩)

/-- An override does not count for a key that is not its own or comes again. -/
theorem last?_without {key : String} (earlier later : List Override) {o : Override}
    (h : o.key ≠ key ∨ ∃ next ∈ later, next.key = o.key) :
    last? key (earlier ++ o :: later) = last? key (earlier ++ later) := by
  rw [← List.singleton_append, last?_append, last?_append, last?_append]
  by_cases hkey : o.key = key
  · subst hkey
    obtain ⟨next, hnext, hsame⟩ := h.resolve_left (fun hne => hne rfl)
    obtain ⟨last, hlast⟩ := exists_last?_of_mem hnext
    rw [← hsame, hlast]
    rfl
  · rw [last?_singleton_of_ne hkey, Option.or_none]

/-- Overrides of different keys change places without a trace. -/
theorem last?_swap {key : String} (earlier later : List Override) {o next : Override}
    (h : o.key ≠ next.key) :
    last? key (earlier ++ o :: next :: later) = last? key (earlier ++ next :: o :: later) := by
  by_cases hkey : o.key = key
  · have hnext : next.key ≠ key := fun heq => h (hkey.trans heq.symm)
    have hleft := last?_without (earlier ++ [o]) later (.inl hnext)
    have hright := last?_without earlier (o :: later) (.inl hnext)
    rw [List.append_assoc, List.append_assoc] at hleft
    exact hleft.trans hright.symm
  · have hleft := last?_without earlier (next :: later) (.inl hkey)
    have hright := last?_without (earlier ++ [next]) later (.inl hkey)
    rw [List.append_assoc, List.append_assoc] at hright
    exact hleft.trans hright.symm

end Override

/-! ### Stored overrides -/

namespace Overrides

open Override

theorem setKey_eq (stored : Overrides) (key : Key) (value : Value) :
    stored.setKey key value = ⟨entered stored.assignments key value⟩ := by
  rw [setKey, entered]
  split <;> rfl

/-- What is stored after overrides. -/
def after (stored : Overrides) (overrides : List Override) : Overrides :=
  overrides.foldl (fun stored o => stored.setKey o.path o.value) stored

theorem setAll_entries (stored : Overrides) (first : Nat) (overrides : List Override) :
    stored.setAll first (overrides.map entry) = .ok (stored.after overrides) := by
  induction overrides generalizing stored first with
  | nil => rfl
  | cons o overrides ih =>
      have hset : stored.set o.key o.value = .ok (stored.setKey o.path o.value) := by
        rw [set, o.parse_key]
      rw [List.map_cons, entry, setAll, hset]
      exact ih _ _

theorem after_concat (stored : Overrides) (overrides : List Override) (o : Override) :
    stored.after (overrides ++ [o]) = (stored.after overrides).setKey o.path o.value := by
  rw [after, List.foldl_append]
  rfl

/-- Stored values come from overrides, and no key comes twice. -/
theorem after_wellFormed (overrides : List Override) :
    (∀ stored ∈ (({} : Overrides).after overrides).assignments,
      ∃ o : Override, stored = (o.path, o.value)) ∧
    ((({} : Overrides).after overrides).assignments.map Prod.fst).Nodup := by
  induction overrides using List.reverseRecOn with
  | nil => exact ⟨fun stored h => (nomatch h), List.nodup_nil⟩
  | append_singleton overrides o ih =>
      rw [after_concat, setKey_eq]
      refine ⟨fun stored h => ?_, nodup_keys_entered _ _ ih.2⟩
      rcases mem_of_mem_entered h with rfl | h
      · exact ⟨o, rfl⟩
      · exact ih.1 stored h

/-- The value stored for a key is the one of its last override. -/
theorem lookup_after (overrides : List Override) (setting : Override) :
    (({} : Overrides).after overrides).assignments.lookup setting.path =
      (last? setting.key overrides).map value := by
  induction overrides using List.reverseRecOn with
  | nil => rfl
  | append_singleton overrides o ih =>
      rw [after_concat, setKey_eq, last?_append]
      by_cases hkey : o.key = setting.key
      · have hpath : o.path = setting.path := (key_eq_iff o setting).1 hkey
        rw [← hpath, ← hkey, last?_singleton_self]
        exact lookup_entered_self _ _ _
      · have hpath : setting.path ≠ o.path := fun heq => hkey ((key_eq_iff o setting).2 heq.symm)
        rw [last?_singleton_of_ne hkey, Option.none_or, ← ih]
        exact lookup_entered_of_ne _ _ hpath

end Overrides

end TokenAudit.Settings

import TokenAudit.Proofs.StoredOverrides

/-!
# Layers of overrides

Stored overrides are laid over the defaults, and the settings are read from the root table that
results.  An override changes the setting of its key and no other, so the order in which the stored
values are laid over does not matter.

* `Value.setting?_foldl_assign`: a setting is what is stored for it, or else what it was.
* `build_of_perm`: the settings that are read are those that the overrides ask for.
* `overrides_are_layered`: the last override of a key counts and no other.
-/

namespace TokenAudit.Settings

open Override

/-! ### Overrides laid over a root table -/

namespace Value

theorem setting?_assign_self (root : Value) {o : Override} {group : Group} {name : String}
    (hname : name ∈ group.members) (h : o.path = group.memberKey name) :
    (o.path.assign root o.value).setting? group name = some o.value := by
  have hvalue : o.value.IsPlain := isPlain_value (not_isForeign_of_path h)
  rw [h, setting?_assign_memberKey_self root hname hvalue]

theorem setting?_assign_of_ne (root : Value) {o : Override} {group : Group} {name : String}
    (h : o.path ≠ group.memberKey name) :
    (o.path.assign root o.value).setting? group name = root.setting? group name := by
  by_cases hforeign : o.IsForeign
  · rw [setting?, setting?, field?_assign_of_ne root o.value (groupKey_ne_of_isForeign hforeign group)]
  · obtain ⟨other, otherName, hname, hpath⟩ := exists_path_eq hforeign
    rw [hpath] at h ⊢
    exact setting?_assign_memberKey_of_ne root hname (isPlain_value hforeign) (Ne.symm h)

/-- A setting is what the entries say that are laid over a root table, in whichever order they come,
and else what it was. -/
theorem setting?_foldl_assign {order : List (Key × Value)} (root : Value) {group : Group}
    {name : String} (hname : name ∈ group.members)
    (hoverrides : ∀ stored ∈ order, ∃ o : Override, stored = (o.path, o.value))
    (hnodup : (order.map Prod.fst).Nodup) :
    (order.foldl (fun root (key, value) => key.assign root value) root).setting? group name =
      (order.lookup (group.memberKey name)).or (root.setting? group name) := by
  induction order generalizing root with
  | nil => rfl
  | cons stored order ih =>
      obtain ⟨⟨o, rfl⟩, hrest⟩ := List.forall_mem_cons.1 hoverrides
      obtain ⟨hfirst, hnodup⟩ := List.nodup_cons.1 hnodup
      rw [List.foldl_cons, ih _ hrest hnodup, List.lookup_cons]
      by_cases hpath : o.path = group.memberKey name
      · -- No later entry has the key of this one.
        have hlookup : order.lookup (group.memberKey name) = none :=
          List.lookup_eq_none_iff.2 fun later hlater => bne_iff_ne.2 fun heq =>
            hfirst (List.mem_map.2 ⟨later, hlater, heq.symm.trans hpath.symm⟩)
        rw [setting?_assign_self root hname hpath, hlookup, hpath, beq_self_eq_true]
        rfl
      · rw [setting?_assign_of_ne root hpath, beq_eq_false_iff_ne.2 (Ne.symm hpath)]

end Value

/-! ### Settings read from a root table -/

theorem member_of_setting? {root v : Value} {group : Group} {name : String} {index : Nat}
    (hindex : group.members[index]? = some name) (h : root.setting? group name = some v) :
    member group root index = .ok (group.key ++ "." ++ name, v) := by
  obtain ⟨parent, hparent, hfield⟩ := Option.bind_eq_some_iff.1 h
  cases parent with
  | table fields =>
      have hlookup : fields.lookup name = some v := hfield
      rw [member, hparent]
      simp only [hindex, Option.getD_some, hlookup]
  | _ => cases hfield

/-- The settings are read from their three places. -/
theorem ofValue_of_settings {root flag level layout : Value} {settings : Settings}
    (hflag : root.setting? .trace "enabled" = some flag)
    (hreadFlag : readFlag "trace.enabled" flag = .ok settings.traceEnabled)
    (hlevel : root.setting? .logging "level" = some level)
    (hreadLevel : readName .level Log.Level.ofName? level = .ok settings.level)
    (hlayout : root.setting? .logging "format" = some layout)
    (hreadLayout : readName .layout Log.Layout.ofName? layout = .ok settings.layout) :
    ofValue root = .ok settings := by
  have hmember : member .trace root 0 = .ok ("trace.enabled", flag) := member_of_setting? rfl hflag
  rw [ofValue, hmember, member_of_setting? rfl hlevel, member_of_setting? rfl hlayout]
  change (readFlag "trace.enabled" flag >>= _) = _
  rw [hreadFlag]
  change (readName .level Log.Level.ofName? level >>= _) = _
  rw [hreadLevel]
  change (readName .layout Log.Layout.ofName? layout >>= _) = _
  rw [hreadLayout]
  rfl

/-! ### What is read for an override -/

theorem readName_of_named {α : Type} {choice : Choice} {ofName? : String → Option α} {a : α}
    {written name : String} (hnamed : Text.asciiLower written = name)
    (hname : name.toList.all (·.toNat < 0x80) = true) (hof : ofName? name = some a) :
    readName choice ofName? (.text written) = .ok a := by
  have hlower := Text.lowerCase_of_asciiLower_eq hnamed fun c hc =>
    of_decide_eq_true (List.all_eq_true.1 hname c hc)
  simp only [readName, hlower, hof]

theorem readFlag_of_path {o : Override} (h : o.path = Group.trace.memberKey "enabled") :
    ∃ b, o.flag? = some b ∧ readFlag "trace.enabled" o.value = .ok b := by
  cases o with
  | flag b => exact ⟨b, rfl, rfl⟩
  | level => simp [path, Group.memberKey, Group.key] at h
  | layout => simp [path, Group.memberKey, Group.key] at h
  | foreign => exact absurd trivial (not_isForeign_of_path h)

theorem readLevel_of_path {o : Override} (h : o.path = Group.logging.memberKey "level") :
    ∃ l, o.level? = some l ∧ readName .level Log.Level.ofName? o.value = .ok l := by
  cases o with
  | level l written named =>
      refine ⟨l, rfl, readName_of_named named ?_ ?_⟩
      · cases l <;> rfl
      · cases l <;> rfl
  | flag => simp [path, Group.memberKey, Group.key] at h
  | layout => simp [path, Group.memberKey] at h
  | foreign => exact absurd trivial (not_isForeign_of_path h)

theorem readLayout_of_path {o : Override} (h : o.path = Group.logging.memberKey "format") :
    ∃ l, o.layout? = some l ∧ readName .layout Log.Layout.ofName? o.value = .ok l := by
  cases o with
  | layout l written named =>
      refine ⟨l, rfl, readName_of_named named ?_ ?_⟩
      · cases l <;> rfl
      · cases l <;> rfl
  | flag => simp [path, Group.memberKey, Group.key] at h
  | level => simp [path, Group.memberKey] at h
  | foreign => exact absurd trivial (not_isForeign_of_path h)

/-- What is read for a setting comes from the last override of its key, or else from the defaults,
in whichever order the stored values are laid over these. -/
theorem exists_setting?_apply {α : Type} {read : Value → Except Error α} {of? : Override → Option α}
    {group : Group} {name : String} {standing : α} (setting : Override)
    (hname : name ∈ group.members) (hpath : setting.path = group.memberKey name)
    (hread : ∀ o : Override, o.path = group.memberKey name →
      ∃ a, of? o = some a ∧ read o.value = .ok a)
    (hdefault : ∃ v, defaults.setting? group name = some v ∧ read v = .ok standing)
    {overrides : List Override} {order : List (Key × Value)}
    (hperm : order.Perm (({} : Overrides).after overrides).assignments) :
    ∃ v, (Overrides.apply ⟨order⟩).setting? group name = some v ∧
      read v = .ok (((last? setting.key overrides).bind of?).getD standing) := by
  obtain ⟨hoverrides, hnodup⟩ := Overrides.after_wellFormed overrides
  have hplace := Value.setting?_foldl_assign defaults hname
    (fun stored h => hoverrides stored (hperm.subset h)) ((hperm.map Prod.fst).nodup_iff.2 hnodup)
  rw [lookup_eq_of_perm hperm hnodup, ← hpath, Overrides.lookup_after] at hplace
  rw [Overrides.apply]
  cases hlast : last? setting.key overrides with
  | none =>
      obtain ⟨v, hv, hreadDefault⟩ := hdefault
      rw [hlast] at hplace
      exact ⟨v, hplace.trans hv, hreadDefault⟩
  | some o =>
      have hkey := (key_eq_iff o setting).1 (key_of_last? hlast)
      obtain ⟨a, hof, hreadValue⟩ := hread o (hkey.trans hpath)
      rw [hlast] at hplace
      refine ⟨o.value, hplace, ?_⟩
      rw [Option.bind_some, hof]
      exact hreadValue

/-- The settings that overrides ask for: the last override of a key counts, and the standard stands
where there is none. -/
def requested (overrides : List Override) : Settings where
  traceEnabled := ((last? "trace.enabled" overrides).bind flag?).getD standard.traceEnabled
  level := ((last? "logging.level" overrides).bind level?).getD standard.level
  layout := ((last? "logging.format" overrides).bind layout?).getD standard.layout

theorem build_of_perm {overrides : List Override} {order : List (Key × Value)}
    (hperm : order.Perm (({} : Overrides).after overrides).assignments) :
    Overrides.build ⟨order⟩ = .ok (requested overrides) := by
  obtain ⟨flag, hflag, hreadFlag⟩ := exists_setting?_apply (.flag true) (by decide) rfl
    (fun o => readFlag_of_path) ⟨.flag true, rfl, rfl⟩ hperm
  obtain ⟨level, hlevel, hreadLevel⟩ := exists_setting?_apply (.level .warn "warn" rfl) (by decide) rfl
    (fun o => readLevel_of_path) ⟨.text "warn", rfl, rfl⟩ hperm
  obtain ⟨layout, hlayout, hreadLayout⟩ := exists_setting?_apply (.layout .compact "compact" rfl)
    (by decide) rfl (fun o => readLayout_of_path) ⟨.text "compact", rfl, rfl⟩ hperm
  exact ofValue_of_settings hflag hreadFlag hlevel hreadLevel hlayout hreadLayout

theorem load_entries (overrides : List Override) :
    load (overrides.map entry) = .ok (requested overrides) := by
  have hbuild : (({} : Overrides).after overrides).build = .ok (requested overrides) :=
    build_of_perm (List.Perm.refl _)
  simp only [load, Overrides.setAll_entries, hbuild]

/-! ### Order and repetition -/

theorem requested_congr {overrides others : List Override}
    (h : ∀ setting : Override, ¬ setting.IsForeign →
      last? setting.key overrides = last? setting.key others) :
    requested overrides = requested others := by
  have hflag := h (.flag true) id
  have hlevel := h (.level .warn "warn" rfl) id
  have hlayout := h (.layout .compact "compact" rfl) id
  change last? "trace.enabled" overrides = last? "trace.enabled" others at hflag
  change last? "logging.level" overrides = last? "logging.level" others at hlevel
  change last? "logging.format" overrides = last? "logging.format" others at hlayout
  rw [requested, requested, hflag, hlevel, hlayout]

theorem key_ne_of_isForeign {o setting : Override} (h : o.IsForeign) (hsetting : ¬ setting.IsForeign) :
    o.key ≠ setting.key := by
  intro hkey
  obtain ⟨group, name, -, hpath⟩ := exists_path_eq hsetting
  exact not_isForeign_of_path (((key_eq_iff o setting).1 hkey).trans hpath) h

/-- An override that is foreign or comes again does not count. -/
theorem requested_without (earlier later : List Override) {o : Override}
    (h : o.IsForeign ∨ ∃ next ∈ later, next.key = o.key) :
    requested (earlier ++ o :: later) = requested (earlier ++ later) :=
  requested_congr fun _ hsetting =>
    last?_without earlier later (h.imp_left fun hforeign => key_ne_of_isForeign hforeign hsetting)

theorem requested_swap (earlier later : List Override) {o next : Override} (h : o.key ≠ next.key) :
    requested (earlier ++ o :: next :: later) = requested (earlier ++ next :: o :: later) :=
  requested_congr fun _ _ => last?_swap earlier later h

/-- Overrides of settings with values of their kinds, and of anything that is no setting, are all
stored, and the settings that result are the requested ones: every setting has the value of the last
override of its key, or the standard one.  That is so in whichever order the stored values are laid
over the defaults.  Overrides that are foreign or come again do not count, and neighbours with
different keys may change places. -/
theorem overrides_are_layered :
    (∀ overrides : List Override,
      load (overrides.map entry) = .ok (requested overrides) ∧
      ∃ stored, ({} : Overrides).setAll 0 (overrides.map entry) = .ok stored ∧
        ∀ order, order.Perm stored.assignments →
          Overrides.build ⟨order⟩ = .ok (requested overrides)) ∧
    (∀ (earlier later : List Override) (o : Override),
      (o.IsForeign ∨ ∃ next ∈ later, next.key = o.key) →
        load ((earlier ++ o :: later).map entry) = load ((earlier ++ later).map entry)) ∧
    ∀ (earlier later : List Override) (o next : Override), o.key ≠ next.key →
      load ((earlier ++ o :: next :: later).map entry) =
        load ((earlier ++ next :: o :: later).map entry) := by
  refine ⟨fun overrides => ⟨load_entries overrides, _, Overrides.setAll_entries _ _ _,
    fun order hperm => build_of_perm hperm⟩, fun earlier later o h => ?_,
    fun earlier later o next h => ?_⟩
  · rw [load_entries, load_entries, requested_without earlier later h]
  · rw [load_entries, load_entries, requested_swap earlier later h]

/-- The later of two overrides of the trace counts.  The failure marker is no setting, and the level
may come before or after the trace. -/
theorem layered_with_repeated_flag :
    load [("trace.enabled", .flag true), ("output.failure_marker", .text ""),
        ("logging.level", .text "Debug"), ("trace.enabled", .flag false)] =
      .ok { traceEnabled := false, level := .debug, layout := .compact } ∧
    load [("trace.enabled", .flag true), ("output.failure_marker", .text ""),
        ("logging.level", .text "Debug"), ("trace.enabled", .flag false)] =
      load [("trace.enabled", .flag true), ("logging.level", .text "Debug"),
        ("trace.enabled", .flag false)] ∧
    load [("trace.enabled", .flag true), ("logging.level", .text "Debug"),
        ("trace.enabled", .flag false)] =
      load [("logging.level", .text "Debug"), ("trace.enabled", .flag false)] ∧
    load [("logging.level", .text "Debug"), ("trace.enabled", .flag false)] =
      load [("trace.enabled", .flag false), ("logging.level", .text "Debug")] := by
  let marker : Override := .foreign "output" ["failure_marker"] (by decide)
    (fun group => by cases group <;> decide) (.text "")
  let debug : Override := .level .debug "Debug" (by decide)
  obtain ⟨hload, hwithout, hswap⟩ := overrides_are_layered
  refine ⟨(hload [.flag true, marker, debug, .flag false]).1, ?_, ?_, ?_⟩
  · exact hwithout [.flag true] [debug, .flag false] marker (.inl trivial)
  · exact hwithout [] [debug, .flag false] (.flag true)
      (.inr ⟨.flag false, by simp, rfl⟩)
  · exact hswap [] [] debug (.flag false) (by decide)

end TokenAudit.Settings

/-!
# Entries by key

Tables of settings and stored overrides are lists of entries, a key and a value each.  Setting the
value of a key keeps the place of an entry that is there and puts a new one at the end, so no key
comes twice, and the order of the entries does not matter to what is found.
-/

namespace TokenAudit.Settings

variable {α β : Type} [DecidableEq α]

/-- Entries with the value of a key set, in its place or at the end. -/
def entered (entries : List (α × β)) (key : α) (value : β) : List (α × β) :=
  if entries.any (·.1 == key) then
    entries.map fun entry => if entry.1 == key then (key, value) else entry
  else entries ++ [(key, value)]

theorem lookup_entered_self (entries : List (α × β)) (key : α) (value : β) :
    (entered entries key value).lookup key = some value := by
  rw [entered]
  split
  next hany =>
    induction entries with
    | nil => cases hany
    | cons entry entries ih =>
        rw [List.map_cons]
        by_cases hentry : entry.1 = key
        · rw [if_pos (beq_iff_eq.2 hentry), List.lookup_cons_self]
        · rw [if_neg (mt beq_iff_eq.1 hentry), List.lookup_cons,
            beq_eq_false_iff_ne.2 (Ne.symm hentry)]
          exact ih (by simpa [hentry] using hany)
  next hnone =>
    have hlookup : entries.lookup key = none :=
      List.lookup_eq_none_iff.2 fun entry hentry => bne_iff_ne.2 fun heq =>
        hnone (List.any_eq_true.2 ⟨entry, hentry, beq_iff_eq.2 heq.symm⟩)
    rw [List.lookup_append, hlookup, Option.none_or, List.lookup_cons_self]

theorem lookup_entered_of_ne (entries : List (α × β)) {key other : α} (value : β)
    (h : other ≠ key) : (entered entries key value).lookup other = entries.lookup other := by
  rw [entered]
  split
  next hany =>
    clear hany
    induction entries with
    | nil => rfl
    | cons entry entries ih =>
        rw [List.map_cons, List.lookup_cons, List.lookup_cons, ih]
        by_cases hentry : entry.1 = key
        · rw [if_pos (beq_iff_eq.2 hentry), beq_eq_false_iff_ne.2 h,
            beq_eq_false_iff_ne.2 (hentry ▸ h)]
        · rw [if_neg (mt beq_iff_eq.1 hentry)]
  next hnone =>
    rw [List.lookup_append, List.lookup_cons, beq_eq_false_iff_ne.2 h, List.lookup_nil, Option.or_none]

theorem mem_of_mem_entered {entries : List (α × β)} {key : α} {value : β} {entry : α × β}
    (h : entry ∈ entered entries key value) : entry = (key, value) ∨ entry ∈ entries := by
  rw [entered] at h
  split at h
  next hany =>
    obtain ⟨old, hold, rfl⟩ := List.mem_map.1 h
    split
    · exact .inl rfl
    · exact .inr hold
  next hnone =>
    rcases List.mem_append.1 h with h | h
    · exact .inr h
    · exact .inl (List.mem_singleton.1 h)

theorem nodup_keys_entered {entries : List (α × β)} (key : α) (value : β)
    (h : (entries.map Prod.fst).Nodup) : ((entered entries key value).map Prod.fst).Nodup := by
  rw [entered]
  split
  next hany =>
    have hkeys : (entries.map fun entry => if entry.1 == key then (key, value) else entry).map
        Prod.fst = entries.map Prod.fst := by
      rw [List.map_map]
      refine List.map_congr_left fun entry _ => ?_
      by_cases hentry : entry.1 = key <;> simp [hentry]
    rwa [hkeys]
  next hnone =>
    rw [List.map_append, List.nodup_append]
    refine ⟨h, List.pairwise_singleton _ _, fun a ha b hb => ?_⟩
    obtain ⟨entry, hentry, rfl⟩ := List.mem_map.1 ha
    obtain rfl := List.mem_singleton.1 hb
    exact fun heq => hnone (List.any_eq_true.2 ⟨entry, hentry, beq_iff_eq.2 heq⟩)

theorem lookup_eq_some_iff_mem {entries : List (α × β)} (h : (entries.map Prod.fst).Nodup) {key : α}
    {value : β} : entries.lookup key = some value ↔ (key, value) ∈ entries := by
  induction entries with
  | nil => simp
  | cons entry entries ih =>
      obtain ⟨hfirst, hrest⟩ := List.nodup_cons.1 h
      rw [List.lookup_cons, List.mem_cons]
      by_cases hkey : key = entry.1
      · subst hkey
        rw [beq_self_eq_true]
        constructor
        · intro hvalue
          exact .inl (Prod.ext rfl (Option.some.inj hvalue).symm)
        · rintro (heq | hmem)
          · exact congrArg some (congrArg Prod.snd heq).symm
          · exact absurd (List.mem_map_of_mem hmem) hfirst
      · rw [beq_eq_false_iff_ne.2 hkey, ih hrest]
        refine ⟨.inr, fun hmem => hmem.resolve_left fun heq => hkey (congrArg Prod.fst heq)⟩

/-- If no key comes twice, the order of the entries does not matter to what is found. -/
theorem lookup_eq_of_perm {entries other : List (α × β)} (hperm : other.Perm entries)
    (h : (entries.map Prod.fst).Nodup) (key : α) : other.lookup key = entries.lookup key := by
  have hother : (other.map Prod.fst).Nodup := (hperm.map Prod.fst).nodup_iff.2 h
  refine Option.ext fun value => ?_
  rw [lookup_eq_some_iff_mem hother, lookup_eq_some_iff_mem h, hperm.mem_iff]

end TokenAudit.Settings

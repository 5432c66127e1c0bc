import MailMerge.Disk.Request

/-! # Names in a folder

A name that can lie in a folder, and the path that such a name has there: the path of the folder
with one more name.
-/

namespace MailMerge

/-- A run of bytes that a walk takes for one name and does not read as a step of its own. -/
structure IsStep (n : Bytes) : Prop where
  ne_nil : n ≠ []
  ne_self : n ≠ selfName
  ne_up : n ≠ upName
  no_slash : Path.slash ∉ n

/-- A name that something on a disk may have. -/
structure IsName (n : Bytes) : Prop extends IsStep n where
  no_zero : (0 : UInt8) ∉ n
  length_le : n.length ≤ nameLimit

instance (n : Bytes) : Decidable (IsStep n) :=
  decidable_of_iff (n ≠ [] ∧ n ≠ selfName ∧ n ≠ upName ∧ Path.slash ∉ n)
    ⟨fun ⟨hnil, hself, hup, hslash⟩ => ⟨hnil, hself, hup, hslash⟩,
      fun h => ⟨h.ne_nil, h.ne_self, h.ne_up, h.no_slash⟩⟩

instance (n : Bytes) : Decidable (IsName n) :=
  decidable_of_iff (IsStep n ∧ (0 : UInt8) ∉ n ∧ n.length ≤ nameLimit)
    ⟨fun ⟨hstep, hzero, hlen⟩ => ⟨hstep, hzero, hlen⟩,
      fun h => ⟨h.toIsStep, h.no_zero, h.length_le⟩⟩

theorem fields_append_sep {α : Type} [DecidableEq α] (sep : α) (xs ys : List α) :
    fields sep (xs ++ sep :: ys) = fields sep xs ++ fields sep ys := by
  induction xs with
  | nil => exact fields_cons_self sep ys
  | cons c xs ih =>
    by_cases hc : c = sep
    · subst hc
      rw [List.cons_append, fields_cons_self, fields_cons_self, ih, List.cons_append]
    · obtain ⟨w, ws, hf, hcons⟩ := fields_cons_of_ne hc xs
      rw [hcons, List.cons_append, fields, if_neg hc, ih, hf]
      rfl

theorem mem_of_mem_fields {α : Type} [DecidableEq α] {sep c : α} {cs w : List α}
    (hw : w ∈ fields sep cs) (hc : c ∈ w) : c ∈ cs := by
  induction cs generalizing w with
  | nil =>
    obtain rfl := List.mem_singleton.mp hw
    exact hc
  | cons b cs ih =>
    by_cases hb : b = sep
    · subst hb
      rw [fields_cons_self, List.mem_cons] at hw
      rcases hw with rfl | hw
      · simp at hc
      · exact List.mem_cons_of_mem _ (ih hw hc)
    · obtain ⟨v, vs, hv, hcs⟩ := fields_cons_of_ne hb cs
      rw [hcs, List.mem_cons] at hw
      rcases hw with rfl | hw
      · rcases List.mem_cons.mp hc with rfl | hc
        · exact List.mem_cons_self
        · exact List.mem_cons_of_mem _ (ih (hv ▸ List.mem_cons_self) hc)
      · exact List.mem_cons_of_mem _ (ih (hv ▸ List.mem_cons_of_mem _ hw) hc)

namespace Path

variable {p : Path} {n : Bytes}

theorem names_plain (hzero : 0 ∉ p.bytes) :
    ∀ m ∈ p.names, slash ∉ m ∧ 0 ∉ m := fun _ hm =>
  ⟨not_mem_of_mem_fields hm, fun h => hzero (mem_of_mem_fields hm h)⟩

theorem isAbsolute_step (hn : IsStep n) : Path.isAbsolute ⟨n⟩ = false := by
  cases n with
  | nil => rfl
  | cons c n =>
    have hc : c ≠ slash := fun h => hn.no_slash (h ▸ List.mem_cons_self)
    simpa [isAbsolute] using hc

/-- A name read inside a folder: one slash divides it from the path of the folder, which may bring
that slash along. -/
theorem exists_join (hn : IsStep n) (hb : p.bytes ≠ []) :
    ∃ xs t, p.bytes = xs ++ t ∧ (t = [] ∨ t = [slash]) ∧ p.join ⟨n⟩ = ⟨xs ++ slash :: n⟩ := by
  have hrel := isAbsolute_step hn
  by_cases hp : p.bytes.getLast? = some slash
  · obtain ⟨xs, hxs⟩ := List.getLast?_eq_some_iff.mp hp
    exact ⟨xs, [slash], hxs, .inr rfl, by simp [join, hrel, hxs]⟩
  · exact ⟨p.bytes, [], by simp, .inl rfl, by simp [join, hrel, hp, hb]⟩

/-- The names of a path with one more name: an empty name at the end of the path gives way to
it. -/
theorem names_join (hn : IsStep n) (hb : p.bytes ≠ []) :
    ∃ ns t, p.names = ns ++ t ∧ (t = [] ∨ t = [[]]) ∧ (p.join ⟨n⟩).names = ns ++ [n] := by
  obtain ⟨xs, t, hp, ht, hjoin⟩ := exists_join hn hb
  have hnames : (p.join ⟨n⟩).names = fields slash xs ++ [n] := by
    rw [hjoin, names, fields_append_sep, fields_of_not_mem hn.no_slash]
  rcases ht with rfl | rfl
  · exact ⟨fields slash xs, [], by rw [names, hp]; simp, .inl rfl, hnames⟩
  · exact ⟨fields slash xs, [[]], by rw [names, hp, fields_append_sep]; rfl, .inr rfl, hnames⟩

theorem isAbsolute_join (hn : IsStep n) (hb : p.bytes ≠ []) :
    (p.join ⟨n⟩).isAbsolute = p.isAbsolute := by
  obtain ⟨xs, t, hp, ht, hjoin⟩ := exists_join hn hb
  rw [hjoin, isAbsolute, isAbsolute, hp]
  cases xs with
  | nil =>
    rcases ht with rfl | rfl
    · exact absurd hp hb
    · rfl
  | cons c xs => rfl

theorem mem_join_iff (hn : IsStep n) (hb : p.bytes ≠ []) {b : UInt8} (hs : b ≠ slash) :
    b ∈ (p.join ⟨n⟩).bytes ↔ b ∈ p.bytes ∨ b ∈ n := by
  obtain ⟨xs, t, hp, ht, hjoin⟩ := exists_join hn hb
  rw [hjoin, hp]
  rcases ht with rfl | rfl <;> simp [hs]

theorem length_join_mono (hn : IsStep n) {m : Bytes} (hm : IsStep m) (h : n.length ≤ m.length) :
    (p.join ⟨n⟩).bytes.length ≤ (p.join ⟨m⟩).bytes.length := by
  simp only [join, isAbsolute_step hn, isAbsolute_step hm, Bool.false_or]
  split
  · exact h
  · split
    · simpa using h
    · simpa using h

theorem length_lt_length_join (hn : IsStep n) (hb : p.bytes ≠ []) :
    p.bytes.length < (p.join ⟨n⟩).bytes.length := by
  obtain ⟨xs, t, hp, ht, hjoin⟩ := exists_join hn hb
  have hpos := List.length_pos_iff.mpr hn.ne_nil
  rw [hjoin, hp]
  rcases ht with rfl | rfl <;> simp only [List.length_append, List.length_cons, List.length_nil] <;>
    omega

theorem getLast?_join (hn : IsStep n) (hb : p.bytes ≠ []) :
    ∃ b ∈ n, (p.join ⟨n⟩).bytes.getLast? = some b ∧ b ≠ slash := by
  obtain ⟨xs, t, -, -, hjoin⟩ := exists_join hn hb
  have hlast := List.getLast_mem hn.ne_nil
  refine ⟨n.getLast hn.ne_nil, hlast, ?_, fun h => hn.no_slash (h ▸ hlast)⟩
  rw [hjoin, List.getLast?_append, List.getLast?_cons, List.getLast?_eq_some_getLast hn.ne_nil]
  rfl

theorem join_slashes (hn : IsStep n) {k : Nat} (hk : 0 < k) :
    Path.join ⟨List.replicate k slash⟩ ⟨n⟩ = ⟨List.replicate k slash ++ n⟩ := by
  obtain ⟨k, rfl⟩ := Nat.exists_eq_succ_of_ne_zero (Nat.ne_of_gt hk)
  have hrel := isAbsolute_step hn
  have hlast : (List.replicate (k + 1) slash).getLast? = some slash := by
    simp [List.getLast?_replicate]
  simp [join, hrel, hlast]

theorem endsInSlash_join (hn : IsStep n) (hb : p.bytes ≠ []) :
    (p.join ⟨n⟩).endsInSlash = false := by
  obtain ⟨b, -, hlast, hne⟩ := getLast?_join hn hb
  simpa [endsInSlash, hlast] using hne

theorem trimSlashes_join (hn : IsStep n) (hb : p.bytes ≠ []) :
    (p.join ⟨n⟩).trimSlashes = p.join ⟨n⟩ := by
  obtain ⟨b, -, hlast, hne⟩ := getLast?_join hn hb
  obtain ⟨xs, hxs⟩ := List.getLast?_eq_some_iff.mp hlast
  have hrev : (p.join ⟨n⟩).bytes.reverse = b :: xs.reverse := by simp [hxs]
  have hkept : ((p.join ⟨n⟩).bytes.reverse.dropWhile (· == slash)).reverse =
      (p.join ⟨n⟩).bytes := by
    rw [hrev, List.dropWhile_cons_of_neg (by simpa using hne), ← hrev, List.reverse_reverse]
  have hne : (p.join ⟨n⟩).bytes.isEmpty = false := by simp [hxs]
  simp [trimSlashes, hkept, hne]

theorem endsInDots_join (hn : IsStep n) (hb : p.bytes ≠ []) :
    (p.join ⟨n⟩).endsInDots = false := by
  obtain ⟨ns, t, -, -, hnames⟩ := names_join hn hb
  simp [endsInDots, trimSlashes_join hn hb, hnames, hn.ne_self, hn.ne_up]

def lastName (p : Path) : Bytes := p.names.getLast (fields_ne_nil slash p.bytes)

theorem lastName_join (hn : IsStep n) : (p.join ⟨n⟩).lastName = n := by
  by_cases hb : p.bytes = []
  · have hjoin : p.join ⟨n⟩ = ⟨n⟩ := by simp [join, hb]
    simp [hjoin, lastName, names, fields_of_not_mem hn.no_slash]
  · obtain ⟨ns, t, -, -, hnames⟩ := names_join hn hb
    simp [lastName, hnames]

end Path

end MailMerge

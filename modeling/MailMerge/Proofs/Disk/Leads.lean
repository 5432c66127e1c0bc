import MailMerge.Proofs.Disk.Names

/-! # Where paths lead

A walk as a relation, one rule for each kind of step. A path that leads to a folder leads, with one
more name, to that name in the folder. Where a path leads depends on the symbolic links of the
disk; the folders on it decide only whether it leads anywhere.
-/

namespace MailMerge.Disk

def HasFolder (d : Disk) (p : Place) : Prop := ∃ t, d.get? p = some (.folder t)

def NoLink (d : Disk) (p : Place) : Prop := ∀ target, d.get? p ≠ some (.link target)

/-- A name that leads from a folder to what it names there. -/
def Enters (m : Bytes) : Prop :=
  m ≠ [] ∧ m ≠ selfName ∧ m ≠ upName ∧ m.length ≤ nameLimit

/-- A walk by some names from a place, which follows at most so many links, ends at a place. -/
inductive Walks (d : Disk) (follow : Bool) : Nat → List Bytes → Place → Place → Prop
  | stop {k : Nat} {p : Place} : Walks d follow k [] p p
  | stay {k : Nat} {m : Bytes} {rest : List Bytes} {p r : Place} (hp : d.HasFolder p)
    (hm : m = [] ∨ m = selfName) (h : Walks d follow k rest p r) : Walks d follow k (m :: rest) p r
  | up {k : Nat} {rest : List Bytes} {p r : Place} (hp : d.HasFolder p)
    (h : Walks d follow k rest p.tail r) : Walks d follow k (upName :: rest) p r
  | missing {k : Nat} {m : Bytes} {p : Place} (hp : d.HasFolder p) (hm : Enters m)
    (hx : d.get? (m :: p) = none) : Walks d follow k [m] p (m :: p)
  | keep {k : Nat} {m target : Bytes} {p : Place} (hp : d.HasFolder p) (hm : Enters m)
    (hx : d.get? (m :: p) = some (.link target)) (hf : follow = false) :
    Walks d follow k [m] p (m :: p)
  | link {k : Nat} {m target : Bytes} {rest : List Bytes} {p r : Place} (hp : d.HasFolder p)
    (hm : Enters m) (hx : d.get? (m :: p) = some (.link target))
    (hr : ¬ (rest = [] ∧ follow = false)) (ht : target ≠ [])
    (h : Walks d follow k (Path.names ⟨target⟩ ++ rest)
      (if Path.isAbsolute ⟨target⟩ then [] else p) r) :
    Walks d follow (k + 1) (m :: rest) p r
  | enter {k : Nat} {m : Bytes} {rest : List Bytes} {p r : Place} {x : Entry}
    (hp : d.HasFolder p) (hm : Enters m) (hx : d.get? (m :: p) = some x)
    (hl : d.NoLink (m :: p)) (h : Walks d follow k rest (m :: p) r) :
    Walks d follow k (m :: rest) p r

theorem Enters.isName {m : Bytes} (h : Enters m) (hm : Path.slash ∉ m ∧ 0 ∉ m) : IsName m where
  ne_nil := h.1
  ne_self := h.2.1
  ne_up := h.2.2.1
  no_slash := hm.1
  no_zero := hm.2
  length_le := h.2.2.2

variable {d d' : Disk} {follow : Bool} {k : Nat} {names rest : List Bytes} {m n : Bytes}
  {p q r : Place}

/-- What a walk that may follow `k` links does with the first one. -/
def onward (d : Disk) (follow : Bool) : Nat → List Bytes → Place → Except Fault Place
  | 0 => fun _ _ => .error .tooManyLinks
  | k + 1 => d.walk follow k

theorem walk_eq (d : Disk) (follow : Bool) (k : Nat) :
    d.walk follow k = d.walkWith follow (d.onward follow k) := by
  cases k <;> rfl

theorem walkWith_cons_eq_ok {on : List Bytes → Place → Except Fault Place}
    (h : d.walkWith follow on (m :: rest) p = .ok r) :
    d.HasFolder p ∧
      ((m = [] ∨ m = selfName) ∧ d.walkWith follow on rest p = .ok r ∨
        m = upName ∧ d.walkWith follow on rest p.tail = .ok r ∨
        Enters m ∧
          (d.get? (m :: p) = none ∧ rest = [] ∧ r = m :: p ∨
            (∃ target, d.get? (m :: p) = some (.link target) ∧
              (rest = [] ∧ follow = false ∧ r = m :: p ∨
                ¬ (rest = [] ∧ follow = false) ∧ target ≠ [] ∧
                  on (Path.names ⟨target⟩ ++ rest)
                    (if Path.isAbsolute ⟨target⟩ then [] else p) = .ok r)) ∨
            (∃ x, d.get? (m :: p) = some x ∧ d.NoLink (m :: p) ∧
              d.walkWith follow on rest (m :: p) = .ok r))) := by
  rw [walkWith] at h
  split at h
  · simp at h
  · rename_i t hp
    refine ⟨⟨t, hp⟩, ?_⟩
    split at h
    · rename_i hm
      exact .inl ⟨hm, h⟩
    · rename_i hm
      obtain ⟨hnil, hself⟩ := not_or.mp hm
      split at h
      · rename_i hup
        exact .inr (.inl ⟨hup, h⟩)
      · rename_i hup
        split at h
        · simp at h
        · rename_i hlen
          refine .inr (.inr ⟨⟨hnil, hself, hup, Nat.not_lt.mp hlen⟩, ?_⟩)
          split at h
          · rename_i hx
            split at h
            · exact .inl ⟨hx, ‹_›, (Except.ok.inj h).symm⟩
            · simp at h
          · rename_i target hx
            refine .inr (.inl ⟨target, hx, ?_⟩)
            split at h
            · rename_i hr
              exact .inl ⟨hr.1, hr.2, (Except.ok.inj h).symm⟩
            · rename_i hr
              split at h
              · simp at h
              · exact .inr ⟨hr, ‹_›, h⟩
          · rename_i x hnl hx
            refine .inr (.inr ⟨x, hx, fun target hlink => ?_, h⟩)
            rw [hx] at hlink
            exact hnl target (Option.some.inj hlink)
  · simp at h

theorem walks_of_walkWith
    (hon : ∀ ms p, d.onward follow k ms p = .ok r → ∃ j, k = j + 1 ∧ Walks d follow j ms p r)
    (h : d.walkWith follow (d.onward follow k) names p = .ok r) : Walks d follow k names p r := by
  induction names generalizing p with
  | nil => exact Except.ok.inj h ▸ .stop
  | cons m rest ih =>
    obtain ⟨hp, ⟨hm, hrest⟩ | ⟨rfl, hrest⟩ | ⟨hm, hcase⟩⟩ := walkWith_cons_eq_ok h
    · exact .stay hp hm (ih hrest)
    · exact .up hp (ih hrest)
    · rcases hcase with ⟨hx, rfl, rfl⟩ | ⟨target, hx, ⟨rfl, hf, rfl⟩ | ⟨hr, ht, hlink⟩⟩ |
        ⟨x, hx, hl, hrest⟩
      · exact .missing hp hm hx
      · exact .keep hp hm hx hf
      · obtain ⟨j, rfl, hw⟩ := hon _ _ hlink
        exact .link hp hm hx hr ht hw
      · exact .enter hp hm hx hl (ih hrest)

theorem walks_of_walk (h : d.walk follow k names p = .ok r) : Walks d follow k names p r := by
  induction k generalizing names p with
  | zero =>
    rw [walk_eq] at h
    exact walks_of_walkWith (fun _ _ hon => by simp [onward] at hon) h
  | succ k ih =>
    rw [walk_eq] at h
    exact walks_of_walkWith (fun _ _ hon => ⟨k, rfl, ih hon⟩) h

section Steps

variable (hp : d.HasFolder p)

include hp

theorem walk_stay (hm : m = [] ∨ m = selfName) :
    d.walk follow k (m :: rest) p = d.walk follow k rest p := by
  obtain ⟨t, ht⟩ := hp
  rw [walk_eq]
  simp only [walkWith, ht, if_pos hm]

theorem walk_up : d.walk follow k (upName :: rest) p = d.walk follow k rest p.tail := by
  obtain ⟨t, ht⟩ := hp
  have hne : ¬ (upName = [] ∨ upName = selfName) := by decide
  rw [walk_eq]
  simp only [walkWith, ht, if_neg hne, if_true]

theorem walk_link {target : Bytes} (hm : Enters m) (hx : d.get? (m :: p) = some (.link target))
    (hr : ¬ (rest = [] ∧ follow = false)) (ht : target ≠ []) :
    d.walk follow (k + 1) (m :: rest) p = d.walk follow k (Path.names ⟨target⟩ ++ rest)
      (if Path.isAbsolute ⟨target⟩ then [] else p) := by
  obtain ⟨t, hfolder⟩ := hp
  obtain ⟨hnil, hself, hup, hlen⟩ := hm
  rw [walk_eq]
  simp only [walkWith, hfolder, hnil, hself, hup, or_self, if_false, Nat.not_lt.mpr hlen, hx,
    if_neg hr, if_neg ht]
  rfl

theorem walk_enter {x : Entry} (hm : Enters m) (hx : d.get? (m :: p) = some x)
    (hl : d.NoLink (m :: p)) : d.walk follow k (m :: rest) p = d.walk follow k rest (m :: p) := by
  obtain ⟨t, ht⟩ := hp
  obtain ⟨hnil, hself, hup, hlen⟩ := hm
  rw [walk_eq]
  cases x with
  | link target => exact absurd hx (hl target)
  | file => simp [walkWith, ht, hnil, hself, hup, Nat.not_lt.mpr hlen, hx]
  | folder => simp [walkWith, ht, hnil, hself, hup, Nat.not_lt.mpr hlen, hx]

theorem walk_eq_nameTooLong (hn : IsStep n) (hlen : nameLimit < n.length) :
    d.walk follow k [n] p = .error .nameTooLong := by
  obtain ⟨t, ht⟩ := hp
  rw [walk_eq]
  simp [walkWith, ht, hn.ne_nil, hn.ne_self, hn.ne_up, hlen]

end Steps

theorem walk_of_walks (h : Walks d follow k names p r) : d.walk follow k names p = .ok r := by
  induction h with
  | stop => rw [walk_eq]; rfl
  | stay hp hm _ ih => rw [walk_stay hp hm, ih]
  | up hp _ ih => rw [walk_up hp, ih]
  | missing hp hm hx =>
    obtain ⟨t, ht⟩ := hp
    obtain ⟨hnil, hself, hup, hlen⟩ := hm
    rw [walk_eq]
    simp [walkWith, ht, hnil, hself, hup, Nat.not_lt.mpr hlen, hx]
  | keep hp hm hx hf =>
    obtain ⟨t, ht⟩ := hp
    obtain ⟨hnil, hself, hup, hlen⟩ := hm
    rw [walk_eq]
    simp [walkWith, ht, hnil, hself, hup, Nat.not_lt.mpr hlen, hx, hf]
  | link hp hm hx hr ht _ ih => rw [walk_link hp hm hx hr ht, ih]
  | enter hp hm hx hl _ ih => rw [walk_enter hp hm hx hl, ih]

theorem resolve_eq_ok_iff {p : Path} : d.resolve follow p = .ok r ↔
    0 ∉ p.bytes ∧ p.bytes ≠ [] ∧ p.bytes.length < pathLimit ∧
      Walks d follow linkLimit p.names (if p.isAbsolute then [] else d.here) r := by
  unfold resolve
  split
  · simp [*]
  · split
    · simp [*]
    · split
      · simp only [reduceCtorEq, false_iff]
        omega
      · rename_i hzero hnil hlen
        refine ⟨fun h => ⟨hzero, hnil, Nat.not_le.mp hlen, walks_of_walk h⟩, ?_⟩
        rintro ⟨-, -, -, h⟩
        exact walk_of_walks h

theorem walks_step (hp : d.HasFolder p) (hn : Enters n) (hl : follow = false ∨ d.NoLink (n :: p)) :
    Walks d follow k [n] p (n :: p) := by
  cases hx : d.get? (n :: p) with
  | none => exact .missing hp hn hx
  | some x =>
    rcases hl with rfl | hl
    · cases x with
      | link target => exact .keep hp hn hx rfl
      | file => exact .enter hp hn hx (by simp [NoLink, hx]) .stop
      | folder => exact .enter hp hn hx (by simp [NoLink, hx]) .stop
    · exact .enter hp hn hx hl .stop

theorem Walks.walk_append {t ns : List Bytes} (h : Walks d true k names p q)
    (hnames : names = ns ++ t) (ht : t = [] ∨ t = [[]]) (hq : d.HasFolder q) (follow : Bool)
    (n : Bytes) : ∃ j, d.walk follow k (ns ++ [n]) p = d.walk follow j [n] q := by
  induction h generalizing ns with
  | @stop k =>
    obtain ⟨rfl, rfl⟩ := List.append_eq_nil_iff.mp hnames.symm
    exact ⟨k, rfl⟩
  | @stay k m rest p r hp hm h ih =>
    rcases List.cons_eq_append_iff.mp hnames with ⟨rfl, hcons⟩ | ⟨ns', rfl, htail⟩
    · rcases ht with rfl | rfl
      · simp at hcons
      · obtain ⟨rfl, rfl⟩ := List.cons.inj hcons.symm
        cases h
        exact ⟨k, rfl⟩
    · rw [List.cons_append, walk_stay hp hm]
      exact ih htail hq
  | up hp h ih =>
    rcases List.cons_eq_append_iff.mp hnames with ⟨rfl, hcons⟩ | ⟨ns', rfl, htail⟩
    · rcases ht with rfl | rfl <;> simp [upName] at hcons
    · rw [List.cons_append, walk_up hp]
      exact ih htail hq
  | missing hp hm hx =>
    obtain ⟨t, hq⟩ := hq
    simp [hx] at hq
  | keep hp hm hx hf => simp at hf
  | link hp hm hx hr htarget h ih =>
    rcases List.cons_eq_append_iff.mp hnames with ⟨rfl, hcons⟩ | ⟨ns', rfl, htail⟩
    · rcases ht with rfl | rfl
      · simp at hcons
      · exact absurd (List.cons.inj hcons).1.symm hm.1
    · rw [List.cons_append, walk_link hp hm hx (by simp) htarget, ← List.append_assoc]
      exact ih (by rw [htail, List.append_assoc]) hq
  | enter hp hm hx hnl h ih =>
    rcases List.cons_eq_append_iff.mp hnames with ⟨rfl, hcons⟩ | ⟨ns', rfl, htail⟩
    · rcases ht with rfl | rfl
      · simp at hcons
      · exact absurd (List.cons.inj hcons).1.symm hm.1
    · rw [List.cons_append, walk_enter hp hm hx hnl]
      exact ih htail hq

theorem Walks.append_step {t ns : List Bytes} (h : Walks d true k names p q)
    (hnames : names = ns ++ t) (ht : t = [] ∨ t = [[]]) (hq : d.HasFolder q) (hn : Enters n)
    (hl : follow = false ∨ d.NoLink (n :: q)) : Walks d follow k (ns ++ [n]) p (n :: q) := by
  obtain ⟨j, hj⟩ := h.walk_append hnames ht hq follow n
  exact walks_of_walk (hj.trans (walk_of_walks (walks_step hq hn hl)))

/-- The last step of a walk, taken back: it started in a folder, and led into it unless it followed
a link there. -/
theorem Walks.of_append_step {t ns : List Bytes} (h : Walks d follow k names p r)
    (hnames : names = ns ++ [n]) (hn : IsStep n) (ht : t = [] ∨ t = [[]]) :
    ∃ q, d.HasFolder q ∧ Walks d true k (ns ++ t) p q ∧
      (r = n :: q ∨ follow = true ∧ ¬ d.NoLink (n :: q)) := by
  have hstop : ∀ {k p}, d.HasFolder p → Walks d true k t p p := by
    intro k p hp
    rcases ht with rfl | rfl
    · exact .stop
    · exact .stay hp (.inl rfl) .stop
  induction h generalizing ns with
  | stop => simp at hnames
  | stay hp hm h ih =>
    rcases List.cons_eq_append_iff.mp hnames with ⟨rfl, hcons⟩ | ⟨ns', rfl, htail⟩
    · obtain ⟨rfl, -⟩ := List.cons.inj hcons
      exact absurd hm (not_or.mpr ⟨hn.ne_nil, hn.ne_self⟩)
    · obtain ⟨q, hq, hw, hr⟩ := ih htail
      exact ⟨q, hq, .stay hp hm hw, hr⟩
  | up hp h ih =>
    rcases List.cons_eq_append_iff.mp hnames with ⟨rfl, hcons⟩ | ⟨ns', rfl, htail⟩
    · exact absurd (List.cons.inj hcons).1 hn.ne_up
    · obtain ⟨q, hq, hw, hr⟩ := ih htail
      exact ⟨q, hq, .up hp hw, hr⟩
  | missing hp hm hx =>
    rcases List.cons_eq_append_iff.mp hnames with ⟨rfl, hcons⟩ | ⟨ns', rfl, htail⟩
    · obtain ⟨rfl, -⟩ := List.cons.inj hcons
      exact ⟨_, hp, hstop hp, .inl rfl⟩
    · simp at htail
  | keep hp hm hx hf =>
    rcases List.cons_eq_append_iff.mp hnames with ⟨rfl, hcons⟩ | ⟨ns', rfl, htail⟩
    · obtain ⟨rfl, -⟩ := List.cons.inj hcons
      exact ⟨_, hp, hstop hp, .inl rfl⟩
    · simp at htail
  | @link k m target rest p r hp hm hx hr htarget h ih =>
    rcases List.cons_eq_append_iff.mp hnames with ⟨rfl, hcons⟩ | ⟨ns', rfl, htail⟩
    · obtain ⟨rfl, rfl⟩ := List.cons.inj hcons
      exact ⟨p, hp, hstop hp, .inr ⟨by simpa using hr, fun hl => hl target hx⟩⟩
    · obtain ⟨q, hq, hw, hlast⟩ := ih (by rw [htail, List.append_assoc])
      rw [List.append_assoc] at hw
      exact ⟨q, hq, .link hp hm hx (by simp) htarget hw, hlast⟩
  | enter hp hm hx hnl h ih =>
    rcases List.cons_eq_append_iff.mp hnames with ⟨rfl, hcons⟩ | ⟨ns', rfl, htail⟩
    · obtain ⟨rfl, rfl⟩ := List.cons.inj hcons
      cases h
      exact ⟨_, hp, hstop hp, .inl rfl⟩
    · obtain ⟨q, hq, hw, hr⟩ := ih htail
      exact ⟨q, hq, .enter hp hm hx hnl hw, hr⟩

/-- The two disks have the same symbolic links. -/
def SameLinks (d d' : Disk) : Prop :=
  ∀ p target, d'.get? p = some (.link target) ↔ d.get? p = some (.link target)

theorem SameLinks.refl (d : Disk) : SameLinks d d := fun _ _ => Iff.rfl

theorem SameLinks.trans {d'' : Disk} (h : SameLinks d d') (h' : SameLinks d' d'') :
    SameLinks d d'' := fun p target => (h' p target).trans (h p target)

theorem SameLinks.noLink_iff (h : SameLinks d d') : d'.NoLink p ↔ d.NoLink p :=
  forall_congr' fun target => not_congr (h p target)

/-- On two disks with the same links, a walk that leads somewhere on both leads to one place. -/
theorem Walks.unique (hs : SameLinks d d') (h : Walks d follow k names p q)
    (h' : Walks d' follow k names p r) : q = r := by
  have hup : ¬ (upName = [] ∨ upName = selfName) := by decide
  have hstep : ∀ {m}, Enters m → ¬ (m = [] ∨ m = selfName) := fun hm => not_or.mpr ⟨hm.1, hm.2.1⟩
  induction h generalizing r with
  | stop => cases h'; rfl
  | stay _ hm _ ih =>
    cases h' with
    | stay _ _ h' => exact ih h'
    | up => exact absurd hm hup
    | missing _ hm' | keep _ hm' | link _ hm' | enter _ hm' => exact absurd hm (hstep hm')
  | up _ _ ih =>
    cases h' with
    | stay _ hm' => exact absurd hm' hup
    | up _ h' => exact ih h'
    | missing _ hm' | keep _ hm' | link _ hm' | enter _ hm' => exact absurd rfl hm'.2.2.1
  | missing _ hm hx =>
    cases h' with
    | stay _ hm' => exact absurd hm' (hstep hm)
    | up => exact absurd rfl hm.2.2.1
    | missing | keep => rfl
    | link _ _ hx' => exact absurd (hx.symm.trans ((hs _ _).mp hx')) (by simp)
    | enter _ _ _ _ h' => cases h'; rfl
  | keep _ hm hx hf =>
    cases h' with
    | stay _ hm' => exact absurd hm' (hstep hm)
    | up => exact absurd rfl hm.2.2.1
    | missing | keep => rfl
    | link _ _ _ hr => exact absurd ⟨rfl, hf⟩ hr
    | enter _ _ _ _ h' => cases h'; rfl
  | link _ hm hx hr _ _ ih =>
    cases h' with
    | stay _ hm' => exact absurd hm' (hstep hm)
    | up => exact absurd rfl hm.2.2.1
    | missing _ _ hx' => exact absurd (hx'.symm.trans ((hs _ _).mpr hx)) (by simp)
    | keep _ _ _ hf => exact absurd ⟨rfl, hf⟩ hr
    | link _ _ hx' _ _ h' =>
      have heq := Option.some.inj (((hs _ _).mp hx').symm.trans hx)
      simp only [Entry.link.injEq] at heq
      subst heq
      exact ih h'
    | enter _ _ _ hl => exact absurd ((hs _ _).mpr hx) (hl _)
  | enter _ hm _ hl h ih =>
    cases h' with
    | stay _ hm' => exact absurd hm' (hstep hm)
    | up => exact absurd rfl hm.2.2.1
    | missing | keep => cases h; rfl
    | link _ _ hx' => exact absurd ((hs _ _).mp hx') (hl _)
    | enter _ _ _ _ h' => exact ih h'

theorem Walks.start_cases (h : Walks d follow k names p q) : q = p ∨ d.HasFolder p := by
  cases h with
  | stop => exact .inl rfl
  | stay hp | up hp | missing hp | keep hp | link hp | enter hp => exact .inr hp

/-- A walk to what is there leads there as well where no folder and no link is missing, if it ends
at something that is no link. -/
theorem Walks.mono_of_present {x y : Entry}
    (hs : ∀ p target, d.get? p = some (.link target) → d'.get? p = some (.link target))
    (hf : ∀ p, d.HasFolder p → d'.HasFolder p) (h : Walks d true k names p q)
    (hq : d.get? q = some x) (hq' : d'.get? q = some y) (hl : d'.NoLink q) :
    Walks d' true k names p q := by
  induction h with
  | stop => exact .stop
  | stay hp hm _ ih => exact .stay (hf _ hp) hm (ih hq hq' hl)
  | up hp _ ih => exact .up (hf _ hp) (ih hq hq' hl)
  | missing _ _ hx => simp [hx] at hq
  | keep _ _ _ hfalse => simp at hfalse
  | link hp hm hx hr ht _ ih => exact .link (hf _ hp) hm (hs _ _ hx) hr ht (ih hq hq' hl)
  | enter hp hm _ _ h ih =>
    rcases h.start_cases with rfl | hfolder
    · exact .enter (hf _ hp) hm hq' hl (ih hq hq' hl)
    · obtain ⟨t, ht⟩ := hf _ hfolder
      exact .enter (hf _ hp) hm ht (by simp [NoLink, ht]) (ih hq hq' hl)

/-- A walk to a folder leads there as well where no folder and no link is missing. -/
theorem Walks.mono
    (hs : ∀ p target, d.get? p = some (.link target) → d'.get? p = some (.link target))
    (hf : ∀ p, d.HasFolder p → d'.HasFolder p)
    (h : Walks d true k names p q) (hq : d.HasFolder q) : Walks d' true k names p q := by
  obtain ⟨t', ht'⟩ := hf q hq
  obtain ⟨t, ht⟩ := hq
  exact h.mono_of_present hs hf ht ht' (by simp [NoLink, ht'])

section Resolve

variable {path : Path}

theorem bytes_ne_nil (h : d.resolve follow path = .ok r) : path.bytes ≠ [] :=
  (resolve_eq_ok_iff.mp h).2.1

theorem IsName.enters (hn : IsName n) : Enters n :=
  ⟨hn.ne_nil, hn.ne_self, hn.ne_up, hn.length_le⟩

theorem resolve_join (hp : d.resolve true path = .ok q) (hq : d.HasFolder q) (hn : IsName n)
    (hlen : (path.join ⟨n⟩).bytes.length < pathLimit) (hl : follow = false ∨ d.NoLink (n :: q)) :
    d.resolve follow (path.join ⟨n⟩) = .ok (n :: q) := by
  obtain ⟨hzero, hnil, -, hw⟩ := resolve_eq_ok_iff.mp hp
  obtain ⟨ns, t, hnames, ht, hjoin⟩ := Path.names_join hn.toIsStep hnil
  refine resolve_eq_ok_iff.mpr ⟨?_, ?_, hlen, ?_⟩
  · rw [Path.mem_join_iff hn.toIsStep hnil (by decide)]
    exact not_or.mpr ⟨hzero, hn.no_zero⟩
  · have hpos := Path.length_lt_length_join hn.toIsStep hnil
    exact List.ne_nil_of_length_pos (by omega)
  · rw [hjoin, Path.isAbsolute_join hn.toIsStep hnil]
    exact hw.append_step hnames ht hq (IsName.enters hn) hl

/-- If the path of a folder with one more name leads to a place, it leads to that name in the
folder, or on from a link there. -/
theorem resolve_of_join (hn : IsStep n) (hnil : path.bytes ≠ [])
    (h : d.resolve follow (path.join ⟨n⟩) = .ok r) :
    ∃ q, d.HasFolder q ∧ d.resolve true path = .ok q ∧
      (r = n :: q ∨ follow = true ∧ ¬ d.NoLink (n :: q)) := by
  obtain ⟨hzero, -, hlen, hw⟩ := resolve_eq_ok_iff.mp h
  obtain ⟨ns, t, hnames, ht, hjoin⟩ := Path.names_join hn hnil
  rw [hjoin, Path.isAbsolute_join hn hnil] at hw
  obtain ⟨q, hq, hw, hr⟩ := hw.of_append_step rfl hn ht
  refine ⟨q, hq, resolve_eq_ok_iff.mpr ⟨?_, hnil, ?_, hnames ▸ hw⟩, hr⟩
  · rw [Path.mem_join_iff hn hnil (by decide)] at hzero
    exact fun h => hzero (.inl h)
  · have hlt := Path.length_lt_length_join hn hnil
    omega

theorem resolve_slashes (hroot : d.HasFolder []) {k : Nat} (hpos : 0 < k) (hk : k < pathLimit) :
    d.resolve follow ⟨List.replicate k Path.slash⟩ = .ok [] := by
  have hwalk : ∀ k,
      Walks d follow linkLimit (fields Path.slash (List.replicate k Path.slash)) [] [] := by
    intro k
    induction k with
    | zero => exact .stay hroot (.inl rfl) .stop
    | succ k ih =>
      rw [List.replicate_succ, fields_cons_self]
      exact .stay hroot (.inl rfl) ih
  obtain ⟨k, rfl⟩ := Nat.exists_eq_succ_of_ne_zero (Nat.ne_of_gt hpos)
  refine resolve_eq_ok_iff.mpr ⟨?_, by simp, by simpa using hk, hwalk (k + 1)⟩
  intro hmem
  exact absurd (List.eq_of_mem_replicate hmem) (by decide)

theorem resolve_unique (hs : SameLinks d d') (hh : d'.here = d.here)
    (h : d.resolve follow path = .ok q) (h' : d'.resolve follow path = .ok r) : q = r := by
  obtain ⟨-, -, -, hw⟩ := resolve_eq_ok_iff.mp h
  obtain ⟨-, -, -, hw'⟩ := resolve_eq_ok_iff.mp h'
  exact hw.unique hs (hh ▸ hw')

theorem resolve_of_missing_none
    (hs : ∀ p target, d.get? p = some (.link target) → d'.get? p = some (.link target))
    (hh : d'.here = d.here) (hf : ∀ p, d.HasFolder p → d'.HasFolder p)
    (h : d.resolve true path = .ok q) (hq : d.HasFolder q) : d'.resolve true path = .ok q := by
  obtain ⟨hzero, hnil, hlen, hw⟩ := resolve_eq_ok_iff.mp h
  exact resolve_eq_ok_iff.mpr ⟨hzero, hnil, hlen, hh ▸ hw.mono hs hf hq⟩

/-- A path to a file leads there as well where no folder and no link is missing, if there is a file
at the same place. -/
theorem resolve_file_mono (hs : SameLinks d d') (hh : d'.here = d.here)
    (hf : ∀ p, d.HasFolder p → d'.HasFolder p) (h : d.resolve true path = .ok q) {x : Entry}
    {b : Bytes} {m : Nat} {t : Moment} (hq : d.get? q = some x)
    (hq' : d'.get? q = some (.file b m t)) : d'.resolve true path = .ok q := by
  obtain ⟨hzero, hnil, hlen, hw⟩ := resolve_eq_ok_iff.mp h
  have hw' := hw.mono_of_present (fun p target => (hs p target).mpr) hf hq hq'
    (by simp [NoLink, hq'])
  exact resolve_eq_ok_iff.mpr ⟨hzero, hnil, hlen, hh ▸ hw'⟩

theorem resolve_mono (hs : SameLinks d d') (hh : d'.here = d.here)
    (hf : ∀ p, d.HasFolder p → d'.HasFolder p) (h : d.resolve true path = .ok q)
    (hq : d.HasFolder q) : d'.resolve true path = .ok q :=
  resolve_of_missing_none (fun p target => (hs p target).mpr) hh hf h hq

theorem resolve_eq_nameTooLong (hzero : 0 ∉ path.bytes) (hlen : pathLimit ≤ path.bytes.length) :
    d.resolve follow path = .error .nameTooLong := by
  have hnil : path.bytes ≠ [] := by
    intro heq
    rw [heq] at hlen
    exact absurd hlen (by decide)
  rw [resolve, if_neg hzero, if_neg hnil, if_pos hlen]

end Resolve

/-- There is room for a name in the folder. -/
structure HasRoom (path : Path) (n : Bytes) : Prop where
  name : IsName n
  length_lt : (path.join ⟨n⟩).bytes.length < pathLimit

end MailMerge.Disk

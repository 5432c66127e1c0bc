import MailMerge.Proofs.Session

/-! # Calls that have nothing to do with each other

A call to the catalog of a store in memory looks at what lies under the names that it mentions, and
changes nothing else. So two calls without a common name may change places.
-/

namespace MailMerge

open StoreM

def StoreM.inTurn {σ α β : Type} (m : StoreM σ α) (m' : StoreM σ β) (s : σ) (d : Disk) :
    (Except TemplateError α × Except TemplateError β) × σ × Disk :=
  let out := m.exec s d
  let out' := m'.exec out.2.1 out.2.2
  ((out.1, out'.1), out'.2)

namespace MemoryStore

variable {α β : Type} {N N' : String → Prop} {m : StoreM MemoryStore α} {s s' : MemoryStore}

/-- The stores hold the same under the names with `N`. -/
def AgreeOn (N : String → Prop) (s s' : MemoryStore) : Prop :=
  ∀ n, N n → s.templates.get? n = s'.templates.get? n

/-- The dealing sees nothing but what lies under the names with `N`, and changes nothing else. -/
structure Local (N : String → Prop) (m : StoreM MemoryStore α) : Prop where
  sees : ∀ {s s' : MemoryStore} (d d' : Disk), AgreeOn N s s' →
    (m.exec s d).1 = (m.exec s' d').1 ∧ AgreeOn N (m.exec s d).2.1 (m.exec s' d').2.1
  frame : ∀ (s : MemoryStore) (d : Disk), (∀ n, ¬ N n →
    (m.exec s d).2.1.templates.get? n = s.templates.get? n) ∧ (m.exec s d).2.2 = d

namespace Local

theorem bind {f : α → StoreM MemoryStore β} (hm : Local N m) (hf : ∀ a, Local N (f a)) :
    Local N (m >>= f) where
  sees {s s'} d d' hs := by
    have hsees := hm.sees d d' hs
    rw [exec_bind, exec_bind]
    rcases hout : m.exec s d with ⟨r, t, e⟩
    rcases hout' : m.exec s' d' with ⟨r', t', e'⟩
    rw [hout, hout'] at hsees
    obtain ⟨hanswer, heffect⟩ := hsees
    obtain rfl : r = r' := hanswer
    cases r with
    | error _ => exact ⟨rfl, heffect⟩
    | ok a => exact (hf a).sees e e' heffect
  frame s d := by
    have hframe := hm.frame s d
    rw [exec_bind]
    rcases hout : m.exec s d with ⟨_ | a, t, e⟩
    · rwa [hout] at hframe
    · rw [hout] at hframe
      obtain ⟨hothers, rfl⟩ := hframe
      obtain ⟨hothers', hdisk⟩ := (hf a).frame t e
      exact ⟨fun n hn => (hothers' n hn).trans (hothers n hn), hdisk⟩

theorem ofExcept (r : Except TemplateError α) : Local N (StoreM.ofExcept r) where
  sees _ _ hs := ⟨rfl, hs⟩
  frame _ _ := ⟨fun _ _ => rfl, rfl⟩

theorem pure (a : α) : Local N (Pure.pure a : StoreM MemoryStore α) := ofExcept (.ok a)

theorem throw (e : TemplateError) : Local N (MonadExcept.throw e : StoreM MemoryStore α) :=
  ofExcept (.error e)

theorem map (hm : Local N m) (f : α → β) : Local N (m >>= fun a => Pure.pure (f a)) :=
  hm.bind fun _ => pure _

theorem ite {p : Prop} [Decidable p] {m' : StoreM MemoryStore α} (hm : Local N m)
    (hm' : Local N m') : Local N (if p then m else m') := by
  split
  · exact hm
  · exact hm'

theorem find {n : String} (hn : N n) : Local N (MemoryStore.find n) where
  sees _ _ hs := by
    rw [exec_find_eq, exec_find_eq, hs n hn]
    exact ⟨rfl, hs⟩
  frame _ _ := by
    rw [exec_find_eq]
    exact ⟨fun _ _ => rfl, rfl⟩

theorem put {t : Template} (ht : N t.name) : Local N (MemoryStore.put t) where
  sees {s s'} d d' hs := by
    refine ⟨rfl, fun n hn => ?_⟩
    show (s.templates.insert t.name t).get? n = (s'.templates.insert t.name t).get? n
    rw [Shelf.get?_insert, Shelf.get?_insert, hs n hn]
  frame s d := by
    refine ⟨fun n hn => ?_, rfl⟩
    have hne : n ≠ t.name := fun heq => hn (heq ▸ ht)
    show (s.templates.insert t.name t).get? n = s.templates.get? n
    rw [Shelf.get?_insert, if_neg hne]

theorem drop {m : String} (hm : N m) : Local N (MemoryStore.drop m) where
  sees {s s'} d d' hs := by
    refine ⟨rfl, fun n hn => ?_⟩
    show (s.templates.erase m).get? n = (s'.templates.erase m).get? n
    rw [Shelf.get?_erase, Shelf.get?_erase, hs n hn]
  frame s d := by
    refine ⟨fun n hn => ?_, rfl⟩
    have hne : n ≠ m := fun heq => hn (heq ▸ hm)
    show (s.templates.erase m).get? n = s.templates.get? n
    rw [Shelf.get?_erase, if_neg hne]

theorem contains {n : String} (hn : N n) :
    Local N (TemplateStore.contains n : StoreM MemoryStore Bool) where
  sees d d' hs := by
    obtain ⟨hanswer, heffect⟩ := (find hn).sees d d' hs
    rw [TemplateStore.exec_contains, TemplateStore.exec_contains]
    exact ⟨congrArg TemplateStore.presence hanswer, heffect⟩
  frame s d := by
    rw [TemplateStore.exec_contains]
    exact (find hn).frame s d

theorem list (hN : ∀ n, N n) :
    Local N (TemplateStore.list : StoreM MemoryStore (List Template)) where
  sees {s s'} _ _ hs := by
    have heq : s.templates = s'.templates := Shelf.ext_get? fun n => hs n (hN n)
    exact ⟨congrArg (fun ts => Except.ok (Shelf.values ts)) heq, hs⟩
  frame _ _ := ⟨fun _ _ => rfl, rfl⟩

/-- Dealings that see no name in common may change places. -/
theorem inTurn_swap {m' : StoreM MemoryStore β} (hm : Local N m) (hm' : Local N' m')
    (hapart : ∀ n, N n → ¬ N' n) (s : MemoryStore) (d : Disk) :
    inTurn m' m s d = ((inTurn m m' s d).1.swap, (inTurn m m' s d).2) := by
  obtain ⟨hothers, hdisk⟩ := hm.frame s d
  obtain ⟨hothers', hdisk'⟩ := hm'.frame s d
  have hfresh : AgreeOn N s (m'.exec s d).2.1 := fun n hn => (hothers' n (hapart n hn)).symm
  have hfresh' : AgreeOn N' s (m.exec s d).2.1 := fun n hn' =>
    (hothers n fun hn => hapart n hn hn').symm
  obtain ⟨hanswer, heffect⟩ := hm.sees d (m'.exec s d).2.2 hfresh
  obtain ⟨hanswer', heffect'⟩ := hm'.sees d (m.exec s d).2.2 hfresh'
  obtain ⟨hlast, hend⟩ := hm.frame (m'.exec s d).2.1 (m'.exec s d).2.2
  obtain ⟨hlast', hend'⟩ := hm'.frame (m.exec s d).2.1 (m.exec s d).2.2
  have hstore : (inTurn m' m s d).2.1 = (inTurn m m' s d).2.1 := by
    refine congrArg MemoryStore.mk (Shelf.ext_get? fun n => ?_)
    by_cases hn : N n
    · exact (heffect n hn).symm.trans (hlast' n (hapart n hn)).symm
    · by_cases hn' : N' n
      · exact (hlast n hn).trans (heffect' n hn')
      · calc (inTurn m' m s d).2.1.templates.get? n
          _ = (m'.exec s d).2.1.templates.get? n := hlast n hn
          _ = s.templates.get? n := hothers' n hn'
          _ = (m.exec s d).2.1.templates.get? n := (hothers n hn).symm
          _ = (inTurn m m' s d).2.1.templates.get? n := (hlast' n hn').symm
  have hleft : (inTurn m' m s d).2.2 = (inTurn m m' s d).2.2 :=
    (hend.trans hdisk').trans (hend'.trans hdisk).symm
  exact Prod.ext (Prod.ext hanswer' hanswer.symm) (Prod.ext hstore hleft)

section Catalog

variable {n : String} {t : Template}

theorem create (ht : N t.name) : Local N (Catalog.create t : StoreM MemoryStore Template) :=
  (ofExcept _).bind fun _ => (contains ht).bind fun _ => ite (throw _) (put ht)

theorem target {lookup : UpdateLookup} (hn : N n) (ht : N t.name) :
    N (Catalog.target lookup n t) := by
  cases lookup with
  | incomingName => exact ht
  | routeName => exact hn

theorem replace (hn : N n) (ht : N t.name) :
    Local N (TemplateStore.update n t : StoreM MemoryStore Template) :=
  (find hn).bind fun _ => (drop hn).bind fun _ => put ht

theorem update (lookup : UpdateLookup) (hn : N n) (ht : N t.name) :
    Local N (Catalog.update lookup n t : StoreM MemoryStore Template) := by
  have hold : N (Catalog.target lookup n t) := target hn ht
  refine (ofExcept _).bind fun _ => (ofExcept _).bind fun _ => (ofExcept _).bind fun _ =>
    (contains hold).bind fun _ => ite (throw _) (ite ?renamed (replace hold ht))
  exact (contains ht).bind fun _ => ite (throw _) (replace hold ht)

theorem delete (hn : N n) : Local N (Catalog.delete n : StoreM MemoryStore Template) :=
  (ofExcept _).bind fun _ => (contains hn).bind fun _ =>
    ite (throw _) ((find hn).bind fun t => (drop hn).map fun _ => t)

end Catalog

end Local

end MemoryStore

/-- A call mentions the names that it is made with. To list the templates is to mention every
name. -/
def Call.Mentions : Call → String → Prop
  | list, _ => True
  | names, _ => True
  | get name, n => n = name
  | create t, n => n = t.name
  | update name t, n => n = name ∨ n = t.name
  | delete name, n => n = name

open MemoryStore in
theorem Call.local_answer (c : Call) (lookup : UpdateLookup) :
    Local c.Mentions (c.answer lookup : StoreM MemoryStore Answer) := by
  cases c with
  | list => exact (Local.list fun _ => trivial).map _
  | names => exact ((Local.list fun _ => trivial).map _).map _
  | get name =>
    have hname : (get name).Mentions name := rfl
    exact (Local.find hname).map _
  | create t =>
    have hname : (create t).Mentions t.name := rfl
    exact (Local.create hname).map _
  | update name t => exact (Local.update lookup (.inl rfl) (.inr rfl)).map _
  | delete name =>
    have hname : (delete name).Mentions name := rfl
    exact (Local.delete hname).map _

/-- Calls that mention no name in common may change places: each is answered as before, with a
template or with the same error, and the store holds the same templates afterwards. -/
theorem independent_calls (lookup lookup' : UpdateLookup) {c c' : Call}
    (hapart : ∀ n, c.Mentions n → ¬ c'.Mentions n) (s : MemoryStore) (d : Disk) :
    let out := inTurn (c.answer lookup) (c'.answer lookup') s d
    let out' := inTurn (c'.answer lookup') (c.answer lookup) s d
    out'.1.1 = out.1.2 ∧ out'.1.2 = out.1.1 ∧ out'.2 = out.2 := by
  have hswap := (c.local_answer lookup).inTurn_swap (c'.local_answer lookup') hapart s d
  rw [hswap]
  exact ⟨rfl, rfl, rfl⟩

/-- A template gets another name and another one is deleted, in either order. -/
theorem independent_calls_sample :
    let c := Call.update "a" ⟨"x", "X"⟩
    let c' := Call.delete "b"
    let s := MemoryStore.ofList [⟨"a", "A"⟩, ⟨"b", "B"⟩, ⟨"c", "C"⟩]
    let out' := inTurn (c'.answer .routeName) (c.answer .routeName) s Disk.empty
    (∀ n, c.Mentions n → ¬ c'.Mentions n) ∧
      out'.1 = (.ok (.template ⟨"b", "B"⟩), .ok (.template ⟨"x", "X"⟩)) ∧
      out'.2.1.templates.values = [⟨"c", "C"⟩, ⟨"x", "X"⟩] := by
  have hapart : ∀ n, (Call.update "a" ⟨"x", "X"⟩).Mentions n → ¬ (Call.delete "b").Mentions n := by
    rintro n (rfl | rfl) (h : _ = "b")
    · exact absurd h (by decide)
    · exact absurd h (by decide)
  obtain ⟨hfirst, hsecond, hleft⟩ := independent_calls .routeName .routeName hapart
    (MemoryStore.ofList [⟨"a", "A"⟩, ⟨"b", "B"⟩, ⟨"c", "C"⟩]) Disk.empty
  exact ⟨hapart, Prod.ext (hfirst.trans rfl) (hsecond.trans rfl),
    (congrArg (fun out => out.1.templates.values) hleft).trans rfl⟩

end MailMerge

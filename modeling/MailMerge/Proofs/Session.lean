import MailMerge.Proofs.Catalog
import MailMerge.Proofs.Store.Refinement

/-! # Sessions

A session is a run of calls to the catalog. Between two calls the store may be dropped and opened
anew, and every stamp on the disk may change. What a session answers depends on the content of the
store alone, so a store in a folder cannot be told from one in memory.
-/

namespace MailMerge

open Disk Utf8

namespace Disk

variable {d : Disk} {q : Place} {path : Path} {clock : Moment} {stamp : Place → Moment}

/-- The same disk with other stamps and at another time. -/
def retime (d : Disk) (clock : Moment) (stamp : Place → Moment) : Disk where
  entries := d.entries.map fun e => (e.1, e.2.withStamp (stamp e.1))
  here := d.here
  now := clock
  distinct := by simpa [Function.comp_def] using d.distinct

theorem get?_retime (p : Place) :
    (d.retime clock stamp).get? p = (d.get? p).map (Entry.withStamp (stamp p)) :=
  Keyed.lookup_map_value (fun (p : Place) (x : Entry) => x.withStamp (stamp p)) d.entries p

theorem bytesAt_retime (p : Place) : (d.retime clock stamp).bytesAt p = d.bytesAt p := by
  rw [bytesAt, get?_retime, bytesAt]
  rcases d.get? p with _ | _ | _ | _ <;> rfl

theorem sameLinks_retime : SameLinks d (d.retime clock stamp) := by
  intro p target
  rw [get?_retime]
  simp

theorem FilesAt.retime (h : FilesAt path d q) (clock : Moment) (stamp : Place → Moment) :
    FilesAt path (d.retime clock stamp) q := by
  refine h.of_change rfl sameLinks_retime (fun r ⟨t, ht⟩ => ?_) fun f x hx => ?_
  · exact ⟨stamp r, by rw [get?_retime, ht]; rfl⟩
  · rw [get?_retime] at hx
    obtain ⟨y, hy, rfl⟩ := Option.map_eq_some_iff.mp hx
    exact ⟨h.names f y hy, by rw [Entry.isFile_withStamp, h.files f y hy]⟩

end Disk

namespace DirectoryStore

theorem Holds.retime {dir : Path} {extension : String} {q : Place} {c : Content}
    {s : DirectoryStore} {d : Disk} (h : Holds dir extension q c s d) (clock : Moment)
    (stamp : Place → Moment) : Holds dir extension q c s (d.retime clock stamp) := by
  have hshown : ∀ n, s.shown (d.retime clock stamp) q n = s.shown d q n := fun n =>
    shown_congr (bytesAt_retime _)
  refine ⟨h.dir_eq, h.extension_eq, h.files.retime clock stamp, fun n => ?_, ?_⟩
  · rw [hshown, h.shows]
  · refine h.index.imp_right fun hix => ⟨fun n t => ?_, fun n r => ?_⟩
    · rw [hshown, hix.templates]
    · rw [hshown, hix.unreadable]

end DirectoryStore

inductive Call
  | list
  | names
  | get (name : String)
  | create (t : Template)
  | update (name : String) (t : Template)
  | delete (name : String)

inductive Answer
  | templates (ts : List Template)
  | names (ns : List String)
  | template (t : Template)
  deriving DecidableEq, Repr

inductive Move
  | call (c : Call)
  /-- The store is dropped and opened anew. -/
  | reopen
  /-- The clock and the stamps of the disk become whatever they may. -/
  | retime (clock : Moment) (stamp : Place → Moment)

/-- A template that a move stores under its own name has a name that fits. -/
def Move.Fits (fits : String → Prop) : Move → Prop
  | .call (.create t) => fits t.name
  | .call (.update _ t) => fits t.name
  | _ => True

section Session

variable {σ : Type} [TemplateStore σ]

def Call.answer (lookup : UpdateLookup) : Call → StoreM σ Answer
  | list => do return .templates (← Catalog.list)
  | names => do return .names (← Catalog.names)
  | get name => do return .template (← Catalog.get name)
  | create t => do return .template (← Catalog.create t)
  | update name t => do return .template (← Catalog.update lookup name t)
  | delete name => do return .template (← Catalog.delete name)

/-- The answers to the calls of a session, in order. A store that cannot be opened anew ends it. -/
def session (reopen : σ → Program (Except TemplateError σ)) (lookup : UpdateLookup) :
    List Move → σ → Disk → List (Except TemplateError Answer)
  | [], _, _ => []
  | .call c :: moves, s, d =>
    let out := (c.answer lookup).exec s d
    out.1 :: session reopen lookup moves out.2.1 out.2.2
  | .reopen :: moves, s, d =>
    match (reopen s).run d with
    | (.ok s', d') => session reopen lookup moves s' d'
    | (.error e, _) => [.error e]
  | .retime clock stamp :: moves, s, d => session reopen lookup moves s (d.retime clock stamp)

end Session

namespace Content

def answer (c : Content) (lookup : UpdateLookup) : Call → Except TemplateError (Answer × Content)
  | .list => .ok (.templates c.templates.values, c)
  | .names => .ok (.names (c.templates.values.map Template.name), c)
  | .get name => (c.find name).map fun t => (.template t, c)
  | .create t => (c.created t).map fun r => (.template r.1, r.2)
  | .update name t => (c.updated lookup name t).map fun r => (.template r.1, r.2)
  | .delete name => (c.deleted name).map fun r => (.template r.1, r.2)

def session (lookup : UpdateLookup) : List Move → Content → List (Except TemplateError Answer)
  | [], _ => []
  | .call call :: moves, c =>
    match c.answer lookup call with
    | .ok (a, c') => .ok a :: session lookup moves c'
    | .error e => .error e :: session lookup moves c
  | .reopen :: moves, c => session lookup moves c
  | .retime .. :: moves, c => session lookup moves c

end Content

section Refinement

variable {σ : Type} {fits : String → Prop} {R : Content → σ → Disk → Prop} {c : Content} {s : σ}
  {d : Disk}

theorem follows_map {α β : Type} {m : StoreM σ α} {r : Except TemplateError (α × Content)}
    (h : Follows R c (m.exec s d) r) (f : α → β) :
    Follows R c ((m >>= fun a => pure (f a)).exec s d) (r.map fun x => (f x.1, x.2)) := by
  rw [StoreM.exec_bind]
  rcases hm : m.exec s d with ⟨out, s', d'⟩
  rw [hm] at h
  rcases r with e | ⟨a, c'⟩
  · obtain ⟨rfl, hR⟩ := h
    exact ⟨rfl, hR⟩
  · obtain ⟨rfl, hR⟩ := h
    exact ⟨rfl, hR⟩

variable [TemplateStore σ]

theorem follows_call (hR : Represents fits R) (h : R c s d) (lookup : UpdateLookup) (call : Call)
    (hfits : (Move.call call).Fits fits) :
    Follows R c ((call.answer lookup).exec s d) (c.answer lookup call) := by
  have hlist : Follows R c ((Catalog.list (σ := σ)).exec s d) (.ok (c.templates.values, c)) :=
    hR.list h
  cases call with
  | list => exact follows_map hlist Answer.templates
  | names => exact follows_map (follows_map hlist (List.map Template.name)) Answer.names
  | get name =>
    have hget := hR.get h name
    cases hfind : c.find name with
    | error e =>
      have hanswer : c.answer lookup (.get name) = .error e := by
        rw [Content.answer, hfind]
        rfl
      rw [hfind] at hget
      rw [hanswer]
      exact follows_map (r := .error e) hget Answer.template
    | ok t =>
      have hanswer : c.answer lookup (.get name) = .ok (.template t, c) := by
        rw [Content.answer, hfind]
        rfl
      rw [hfind] at hget
      rw [hanswer]
      exact follows_map (r := .ok (t, c)) hget Answer.template
  | create t => exact follows_map (follows_create hR h hfits) Answer.template
  | update name t => exact follows_map (follows_update hR h lookup name hfits) Answer.template
  | delete name => exact follows_map (follows_delete hR h name) Answer.template

/-- On a store that keeps the laws of a content, and keeps its content when it is opened anew and
when the stamps change, a session answers what it answers for the content. -/
theorem session_eq_content {reopen : σ → Program (Except TemplateError σ)}
    (hR : Represents fits R)
    (hreopen : ∀ {c s d}, R c s d → ∃ s' d', (reopen s).run d = (.ok s', d') ∧ R c s' d')
    (hretime : ∀ {c s d} clock stamp, R c s d → R c s (d.retime clock stamp))
    (h : R c s d) (lookup : UpdateLookup) (moves : List Move)
    (hfits : ∀ move ∈ moves, move.Fits fits) :
    session reopen lookup moves s d = c.session lookup moves := by
  induction moves generalizing c s d with
  | nil => rfl
  | cons move moves ih =>
    have hrest : ∀ move ∈ moves, move.Fits fits := fun m hm => hfits m (List.mem_cons_of_mem _ hm)
    cases move with
    | call call =>
      have hcall := follows_call hR h lookup call (hfits _ List.mem_cons_self)
      rw [session, Content.session]
      cases hanswer : c.answer lookup call with
      | error e =>
        rw [hanswer] at hcall
        rw [hcall.1, ih hcall.2 hrest]
      | ok r =>
        rw [hanswer] at hcall
        rw [hcall.1, ih hcall.2 hrest]
    | reopen =>
      obtain ⟨s', d', hrun, h'⟩ := hreopen h
      rw [session, Content.session, hrun]
      exact ih h' hrest
    | retime clock stamp => exact ih (hretime clock stamp h) hrest

end Refinement

def MemoryStore.reopen (s : MemoryStore) : Program (Except TemplateError MemoryStore) :=
  return .ok s

def DirectoryStore.reopen (s : DirectoryStore) : Program (Except TemplateError DirectoryStore) :=
  openAt s.dir s.extension

theorem MemoryStore.session_eq (lookup : UpdateLookup) (moves : List Move) (d : Disk) :
    session MemoryStore.reopen lookup moves (MemoryStore.ofList []) d =
      Content.empty.session lookup moves := by
  have hempty : Holds Content.empty (ofList []) d := ⟨rfl, rfl⟩
  refine session_eq_content MemoryStore.represents (fun h => ⟨_, _, rfl, h⟩) (fun _ _ h => h) hempty
    lookup moves fun move _ => ?_
  unfold Move.Fits
  split <;> trivial

namespace DirectoryStore

variable {dir : Path} {extension : String} {s : DirectoryStore} {d d₀ : Disk} {q : Place}

theorem Holds.reopen {c : Content} (h : Holds dir extension q c s d) :
    ∃ s' d', (DirectoryStore.reopen s).run d = (.ok s', d') ∧ Holds dir extension q c s' d' := by
  obtain rfl := h.dir_eq
  obtain rfl := h.extension_eq
  exact ⟨_, d, run_openAt_of_folder s.extension h.files.leads h.files.folder, rfl, rfl, h.files,
    h.shows, .inl rfl⟩

/-- A store opened on an empty folder, alone with it and with room for the names, answers every
session as an empty store in memory does. -/
theorem session_eq_memory (hext : IsExtension extension)
    (hopen : (openAt dir extension).run d₀ = (.ok s, d)) (hleads : d.resolve true dir = .ok q)
    (hfolder : d.HasFolder q) (hempty : ∀ f, d.get? (f :: q) = none) (lookup : UpdateLookup)
    (moves : List Move) (hfits : ∀ move ∈ moves, move.Fits (Fits dir extension)) :
    session DirectoryStore.reopen lookup moves s d =
      session MemoryStore.reopen lookup moves (MemoryStore.ofList []) d := by
  have hs : s = ⟨dir, extension, {}⟩ := by
    rcases run_openAt dir extension d₀ with hrun | hrun | ⟨fault, hrun⟩ <;>
      simp only [hrun, Prod.mk.injEq, Except.ok.injEq, reduceCtorEq, false_and] at hopen
    · exact hopen.1.symm
    · exact hopen.1.symm
  have hfiles : FilesAt dir d q :=
    ⟨hleads, hfolder, fun f x hx => by simp [hempty] at hx, fun f x hx => by simp [hempty] at hx⟩
  have hshows : ∀ n, s.shown d q n = Content.empty.find n := fun n =>
    shown_of_bytesAt_none (by simp [bytesAt, hempty])
  have hholds : Holds dir extension q .empty s d := by
    subst hs
    exact ⟨rfl, rfl, hfiles, hshows, .inl rfl⟩
  rw [MemoryStore.session_eq, session_eq_content (represents hext) Holds.reopen
    (fun clock stamp h => h.retime clock stamp) hholds lookup moves hfits]

def sampleMoves : List Move :=
  [.call (.create ⟨"a", "A"⟩), .reopen, .call (.update "a" ⟨"b", "B"⟩), .retime 0 fun _ => 0,
    .call (.get "a"), .call .list]

theorem session_sample :
    session DirectoryStore.reopen .routeName sampleMoves (rootStore 1) Disk.empty =
      [.ok (.template ⟨"a", "A"⟩), .ok (.template ⟨"b", "B"⟩), .error (.notFound "a"),
        .ok (.templates [⟨"b", "B"⟩])] := by
  have hext : IsExtension "html" := ⟨by decide, by decide, by decide, by decide⟩
  have hroot : Disk.empty.HasFolder [] := ⟨0, rfl⟩
  have hleads : Disk.empty.resolve true (rootStore 1).dir = .ok [] :=
    resolve_slashes hroot (by decide) (by decide)
  have hroom : ∀ name, name = "a" ∨ name = "b" → Fits (rootStore 1).dir "html" name := by
    rintro name (rfl | rfl) <;> exact ⟨by decide, by decide⟩
  have hfits : ∀ move ∈ sampleMoves, move.Fits (Fits (rootStore 1).dir "html") := by
    simp only [sampleMoves, List.forall_mem_cons]
    exact ⟨hroom _ (.inl rfl), trivial, hroom _ (.inr rfl), trivial, trivial, trivial, nofun⟩
  have heq := session_eq_memory hext (run_openAt_of_folder "html" hleads hroot) hleads hroot
    (fun f => rfl) .routeName sampleMoves hfits
  exact heq.trans ((MemoryStore.session_eq _ _ _).trans rfl)

theorem create_without_room {c : Content} {t : Template} (hext : IsExtension extension)
    (h : Holds dir extension q c s d) (hvalid : ValidName t.name)
    (hfree : c.find t.name = .error (.notFound t.name))
    (hlong : pathLimit ≤ (s.draftPathFor t.name).bytes.length) :
    ((Catalog.create t).exec s d).1 = .error (.storage (s.draftPathFor t.name) .nameTooLong) := by
  have hkept := h.refreshed hext
  have hget := exec_get (h.folderAt hext) h.current t.name
  rw [h.shows, hfree] at hget
  rw [Catalog.create]
  simp only [StoreM.exec_bind, StoreM.exec_ofExcept, checkName_eq_ok_iff.mpr hvalid,
    StoreM.followUp_ok, TemplateStore.exec_contains, hget, TemplateStore.presence]
  have hpath : (s.refreshed d q).draftPathFor t.name = s.draftPathFor t.name := by
    simp only [draftPathFor, dir_refreshed, extension_refreshed]
  have hwrite := exec_writeDocument_tooLong (hkept.extension_eq.symm ▸ hext)
    (hkept.dir_eq.symm ▸ hkept.files) hvalid (hpath.symm ▸ hlong)
  simp only [Bool.false_eq_true, if_false, TemplateStore.create, StoreM.exec_bind, hwrite,
    StoreM.followUp_error, hpath]

/-- In a folder whose path leaves no room for a draft, a session goes another way than in memory. -/
theorem session_differs_without_room :
    ∃ s : DirectoryStore, IsExtension s.extension ∧
      (openAt s.dir s.extension).run Disk.empty = (.ok s, Disk.empty) ∧
      Disk.empty.resolve true s.dir = .ok [] ∧ Disk.empty.HasFolder [] ∧
      (∀ f, Disk.empty.get? [f] = none) ∧
      (encode "a").length + 1 + (encode s.extension).length + 4 ≤ nameLimit ∧
      session DirectoryStore.reopen .incomingName [.call (.create ⟨"a", "A"⟩)] s Disk.empty ≠
        session MemoryStore.reopen .incomingName [.call (.create ⟨"a", "A"⟩)]
          (MemoryStore.ofList []) Disk.empty := by
  have hext : IsExtension "html" := ⟨by decide, by decide, by decide, by decide⟩
  have hroot : Disk.empty.HasFolder [] := ⟨0, rfl⟩
  have hleads : Disk.empty.resolve true (rootStore 4090).dir = .ok [] :=
    resolve_slashes hroot (by decide) (by decide)
  have hvalid : ValidName "a" := by decide
  refine ⟨rootStore 4090, hext, run_openAt_of_folder "html" hleads hroot, hleads, hroot,
    fun f => rfl, by decide, fun heq => ?_⟩
  have hholds : Holds (rootStore 4090).dir "html" [] .empty (rootStore 4090) Disk.empty :=
    ⟨rfl, rfl, ⟨hleads, hroot, nofun, nofun⟩, fun n => shown_of_bytesAt_none rfl, .inl rfl⟩
  have hlong : pathLimit ≤ ((rootStore 4090).draftPathFor "a").bytes.length := by
    have hdraft : (encode (draftName "html" "a")).length = 10 := by decide
    have hstep := isStep_draftName hvalid.isDocumentName hvalid.slash_not_mem hext.no_slash
    rw [draftPathFor, rootStore, Path.child, Path.ofString, length_child_slashes (by decide) hstep,
      hdraft]
    decide
  have hcreate := create_without_room (t := ⟨"a", "A"⟩) hext hholds hvalid rfl hlong
  have hmemory : Content.empty.session .incomingName [.call (.create ⟨"a", "A"⟩)] =
      [.ok (.template ⟨"a", "A"⟩)] := rfl
  rw [MemoryStore.session_eq, hmemory, session, Call.answer, StoreM.exec_bind] at heq
  rcases hout : (Catalog.create ⟨"a", "A"⟩).exec (rootStore 4090) Disk.empty with ⟨_ | t, s', d'⟩
  · simp [hout] at heq
  · simp [hout] at hcreate

end DirectoryStore

end MailMerge

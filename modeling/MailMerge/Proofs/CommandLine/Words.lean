import Mathlib.Data.List.Nodup
import MailMerge.CommandLine.Command
import MailMerge.Proofs.Request

/-! # Words for options

Every text of a request has an option of its own. The words that give some of them, in this order
and each at most once, are understood as the options that they say.
-/

namespace MailMerge.CommandLine

namespace Arguments

variable {spec : Spec} {a : Arguments} {e : String × String}

def wordOf (e : String × String) : String := "--" ++ e.1 ++ "=" ++ e.2

theorem ofString_wordOf (heq : '=' ∉ e.1.toList) :
    Word.ofString (wordOf e) = .long e.1 (some e.2) := by
  have hword : (wordOf e).toList = '-' :: '-' :: (e.1.toList ++ '=' :: e.2.toList) := by
    simp [wordOf]
  have hkeep : ∀ c ∈ e.1.toList, (c != '=') = true := by
    intro c hc
    simp only [bne_iff_ne, ne_eq]
    rintro rfl
    exact heq hc
  have hname : (e.1.toList ++ '=' :: e.2.toList).takeWhile (· != '=') = e.1.toList := by
    rw [List.takeWhile_append_of_pos hkeep]
    simp
  have hvalue : (e.1.toList ++ '=' :: e.2.toList).dropWhile (· != '=') = '=' :: e.2.toList := by
    rw [List.dropWhile_append_of_pos hkeep]
    simp
  cases hcs : e.1.toList ++ '=' :: e.2.toList with
  | nil => simp at hcs
  | cons c cs =>
    rw [hcs] at hword hname hvalue
    simp [Word.ofString, hword, hname, hvalue]

/-- A value that may be given to an option which is not among those that were. -/
structure Takes (spec : Spec) (e : String × String) (o : OptionSpec) : Prop where
  found : spec.options.find? (fun o => o.name == e.1) = some o
  named : '=' ∉ e.1.toList
  path : o.isPath = true → e.2 ≠ ""

theorem addOption_of_takes {o : OptionSpec} (h : Takes spec e o)
    (hfree : e.1 ∉ a.options.map Prod.fst) :
    a.addOption o e.2 = .ok { a with options := e :: a.options } := by
  have hname : o.name = e.1 := by
    have hfound := List.find?_some h.found
    simpa using hfound
  have hnone : a.option? o.name = none := by
    rw [hname, option?, List.lookup_eq_none_iff]
    intro p hp
    simp only [bne_iff_ne, ne_eq]
    rintro heq
    exact hfree (heq ▸ List.mem_map_of_mem hp)
  have hpath : (o.isPath && e.2.isEmpty) = false := by
    cases hp : o.isPath with
    | false => rfl
    | true => simpa using h.path hp
  rw [addOption, hnone, hpath, hname]
  rfl

theorem ofWords_map_wordOf {es : List (String × String)} (words : List String)
    (htakes : ∀ e ∈ es, ∃ o, Takes spec e o)
    (hkeys : ((es.reverse ++ a.options).map Prod.fst).Nodup) :
    ofWords spec a (es.map wordOf ++ words) =
      ofWords spec { a with options := es.reverse ++ a.options } words := by
  induction es generalizing a with
  | nil => rfl
  | cons e es ih =>
    obtain ⟨o, ho⟩ := htakes e List.mem_cons_self
    rw [List.reverse_cons, List.append_assoc, List.singleton_append] at hkeys
    have hfree : e.1 ∉ a.options.map Prod.fst := by
      rw [List.map_append, List.map_cons] at hkeys
      exact (List.nodup_cons.mp (List.nodup_append.mp hkeys).2.1).1
    rw [List.map_cons, List.cons_append, ofWords, ofString_wordOf ho.named]
    simp only [ho.found, addOption_of_takes ho hfree]
    rw [List.reverse_cons, List.append_assoc, List.singleton_append]
    exact ih (a := { a with options := e :: a.options })
      (fun e' he' => htakes e' (List.mem_cons_of_mem _ he')) hkeys

end Arguments

namespace RenderOptions

variable {o : RenderOptions} {f g : RequestField} {v : String}

/-- The text that the options say for a field of the request. -/
def get? (o : RenderOptions) : RequestField → Option String
  | .own .recipient => o.recipient
  | .own .title => o.subject
  | .own .templateName => o.template
  | .fragment p => o.fragments.get? p

def optionFor : RequestField → String
  | .own .recipient => "to"
  | .own .title => "subject"
  | .own .templateName => "template"
  | .fragment p => optionName p

theorem optionFor_injective (h : optionFor f = optionFor g) : f = g := by
  have hall : ∀ f ∈ RequestField.all, ∀ g ∈ RequestField.all,
      optionFor f = optionFor g → f = g := by decide
  exact hall f (RequestField.mem_all f) g (RequestField.mem_all g) h

theorem optionFor_ne_request (f : RequestField) : optionFor f ≠ "request" := by
  have hall : ∀ f ∈ RequestField.all, optionFor f ≠ "request" := by decide
  exact hall f (RequestField.mem_all f)

theorem find?_optionFor (f : RequestField) :
    (renderSpec.options.find? fun s => s.name == optionFor f) = some { name := optionFor f } := by
  rcases f with f | p
  · cases f <;> rfl
  · cases p <;> rfl

theorem eq_not_mem_optionFor (f : RequestField) : '=' ∉ (optionFor f).toList := by
  have hall : ∀ f ∈ RequestField.all, '=' ∉ (optionFor f).toList := by decide
  exact hall f (RequestField.mem_all f)

def givenFields (o : RenderOptions) : List RequestField :=
  RequestField.all.filter fun f => (o.get? f).isSome

def given (o : RenderOptions) : List (String × String) :=
  (o.request.map fun path => ("request", path.display)).toList ++
    o.givenFields.map fun f => (optionFor f, (o.get? f).getD "")

def words (o : RenderOptions) : List String :=
  "render" :: (o.given.map Arguments.wordOf ++ if o.json then ["--json"] else [])

theorem mem_given_iff : (optionFor f, v) ∈ o.given ↔ o.get? f = some v := by
  have hrequest : (optionFor f, v) ∉
      (o.request.map fun path => ("request", path.display)).toList := by
    intro h
    obtain ⟨path, -, heq⟩ := Option.map_eq_some_iff.mp (Option.mem_toList.mp h)
    exact optionFor_ne_request f (congrArg Prod.fst heq).symm
  rw [given, List.mem_append, or_iff_right hrequest, List.mem_map]
  constructor
  · rintro ⟨g, hg, heq⟩
    obtain ⟨hname, htext⟩ := Prod.mk.inj heq
    obtain rfl := optionFor_injective hname
    obtain ⟨w, hw⟩ := Option.isSome_iff_exists.mp (List.mem_filter.mp hg).2
    rw [hw] at htext ⊢
    exact congrArg some htext
  · intro h
    refine ⟨f, List.mem_filter.mpr ⟨RequestField.mem_all f, by rw [h]; rfl⟩, by rw [h]; rfl⟩

theorem mem_given_request_iff :
    ("request", v) ∈ o.given ↔ o.request.map Path.display = some v := by
  have hfields : ("request", v) ∉ o.givenFields.map fun f => (optionFor f, (o.get? f).getD "") := by
    intro h
    obtain ⟨f, -, heq⟩ := List.mem_map.mp h
    exact optionFor_ne_request f (congrArg Prod.fst heq)
  rw [given, List.mem_append, or_iff_left hfields]
  cases o.request <;> simp [eq_comm]

theorem given_distinct (o : RenderOptions) : (o.given.map Prod.fst).Nodup := by
  have hall : ("request" :: RequestField.all.map optionFor).Nodup := by decide
  refine hall.sublist ?_
  have hfields : (o.givenFields.map optionFor).Sublist (RequestField.all.map optionFor) :=
    List.filter_sublist.map _
  rw [given, List.map_append, List.map_map]
  cases o.request with
  | none => exact hfields.cons _
  | some path => exact hfields.cons_cons _

theorem takes_of_mem_given (hpath : ∀ path, o.request = some path → path.display ≠ "")
    {e : String × String} (he : e ∈ o.given) : ∃ spec, Arguments.Takes renderSpec e spec := by
  rcases List.mem_append.mp he with h | h
  · obtain ⟨path, hrequest, rfl⟩ := Option.map_eq_some_iff.mp (Option.mem_toList.mp h)
    have hname : '=' ∉ "request".toList := by decide
    exact ⟨{ name := "request", isPath := true }, rfl, hname, fun _ => hpath path hrequest⟩
  · obtain ⟨f, -, rfl⟩ := List.mem_map.mp h
    exact ⟨{ name := optionFor f }, find?_optionFor f, eq_not_mem_optionFor f, nofun⟩

theorem lookup_given_eq_some_iff {key : String} :
    o.given.reverse.lookup key = some v ↔ (key, v) ∈ o.given := by
  have hdistinct : (o.given.reverse.map Prod.fst).Nodup := by
    rw [List.map_reverse]
    exact List.nodup_reverse.mpr o.given_distinct
  rw [← Keyed.mem_iff_lookup hdistinct, List.mem_reverse]

theorem lookup_given (o : RenderOptions) (f : RequestField) :
    o.given.reverse.lookup (optionFor f) = o.get? f := by
  ext v
  rw [lookup_given_eq_some_iff, mem_given_iff]

theorem lookup_given_request (o : RenderOptions) :
    o.given.reverse.lookup "request" = o.request.map Path.display := by
  ext v
  rw [lookup_given_eq_some_iff, mem_given_request_iff]

theorem renderOptionsOf_given {a : Arguments} (hoptions : a.options = o.given.reverse)
    (hjson : a.hasFlag "json" = o.json)
    (hpath : (o.request.map Path.display).map Path.ofString = o.request) :
    renderOptionsOf a = o := by
  have hoption (f : RequestField) : a.option? (optionFor f) = o.get? f := by
    rw [Arguments.option?, hoptions, lookup_given]
  have hrequest : (a.option? "request").map Path.ofString = o.request := by
    rw [Arguments.option?, hoptions, lookup_given_request, hpath]
  have hfragments : Fragments.ofFn (fun p => a.option? (optionName p)) = o.fragments :=
    Fragments.ext_get? fun p => by rw [Fragments.get?_ofFn]; exact hoption (.fragment p)
  have hto : a.option? "to" = o.recipient := hoption (.own .recipient)
  have hsubject : a.option? "subject" = o.subject := hoption (.own .title)
  have htemplate : a.option? "template" = o.template := hoption (.own .templateName)
  rw [renderOptionsOf, hrequest, hto, hsubject, htemplate, hfragments, hjson]

/-- The words that say options are understood as these options. -/
theorem ofWords_words (hpath : ∀ path, o.request = some path →
    ∃ name, name ≠ "" ∧ path = Path.ofString name) :
    Command.ofWords o.words = .ok (.render o) := by
  have htakes (e : String × String) (he : e ∈ o.given) : ∃ s, Arguments.Takes renderSpec e s := by
    refine takes_of_mem_given (fun path hrequest => ?_) he
    obtain ⟨name, hne, rfl⟩ := hpath path hrequest
    rwa [Path.display_ofString]
  have hshown : (o.request.map Path.display).map Path.ofString = o.request := by
    cases hrequest : o.request with
    | none => rfl
    | some path =>
      obtain ⟨name, -, rfl⟩ := hpath path hrequest
      simp [Path.display_ofString]
  have hdistinct : ((o.given.reverse ++ ({} : Arguments).options).map Prod.fst).Nodup := by
    rw [List.append_nil, List.map_reverse]
    exact List.nodup_reverse.mpr o.given_distinct
  have hsorted : ∃ a, Arguments.ofWords renderSpec {}
      (o.given.map Arguments.wordOf ++ if o.json then ["--json"] else []) = .ok a ∧
        a.options = o.given.reverse ∧ a.hasFlag "json" = o.json := by
    rw [Arguments.ofWords_map_wordOf _ htakes hdistinct, List.append_nil]
    cases o.json with
    | false => exact ⟨_, rfl, rfl, rfl⟩
    | true => exact ⟨_, rfl, rfl, rfl⟩
  obtain ⟨a, ha, hoptions, hjson⟩ := hsorted
  have hword : Word.ofString "render" = .name "render" := by decide
  have hread := renderOptionsOf_given hoptions hjson hshown
  rw [words]
  unfold Command.ofWords
  simp only [hword, ha]
  exact congrArg (fun o => Except.ok (Command.render o)) hread

end RenderOptions

end MailMerge.CommandLine

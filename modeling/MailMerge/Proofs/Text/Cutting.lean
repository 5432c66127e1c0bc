import MailMerge.Proofs.Text.Boundary

/-! # Computations that cut a text between its characters

A computation succeeds on a text if each of its cuts falls between two characters of the text, so
that texts are left on either side and none is refused. That is proved step by step: a part of the
text that is given by its characters may be cut behind some of them, and of a scan it is enough to
look at one round.
-/

namespace MailMerge

open Utf8

/-- The cut is one of a part of the text, falls between two characters of the text, and leaves a
text on either side. -/
structure Cut.Divides (c : Cut) (text : String) : Prop where
  within : c.stretch.bytes <+: (encode text).drop c.stretch.start
  offset_le : c.offset ≤ c.stretch.bytes.length
  boundary : String.Pos.Raw.IsValid text ⟨c.position⟩
  front : ∃ t, decode? c.front.bytes = some t
  back : ∃ t, decode? c.back.bytes = some t

def Stretch.behind (before cs : List Char) : Stretch := ⟨(ofChars before).length, ofChars cs⟩

@[simp] theorem Stretch.bytes_behind (before cs : List Char) :
    (Stretch.behind before cs).bytes = ofChars cs := rfl

/-- The round leads on to a state as `N` says, or to an answer as `P` says. -/
def Round.Leads {σ α : Type} (N : σ → Prop) (P : α → Prop) : Round σ α → Prop
  | .next s => N s
  | .answer a => P a

namespace Cutting

variable {σ α β : Type} {text : String} {before front back after : List Char}
  {P : α → Prop} {Q : β → Prop} {m : Cutting α}

theorem divides_behind (htext : text.toList = before ++ (front ++ back) ++ after) :
    Cut.Divides ⟨.behind before (front ++ back), (ofChars front).length⟩ text where
  within := by
    rw [← ofChars_toList, htext, ofChars_append, ofChars_append, List.append_assoc]
    show ofChars (front ++ back) <+: List.drop (ofChars before).length _
    rw [List.drop_left]
    exact List.prefix_append _ _
  offset_le := by
    show _ ≤ (ofChars (front ++ back)).length
    rw [ofChars_append, List.length_append]
    exact Nat.le_add_right _ _
  boundary := by
    rw [← isBoundary_encode_iff, ← ofChars_toList, isBoundary_ofChars_iff]
    refine ⟨before ++ front, back ++ after, by simp [htext], ?_⟩
    rw [ofChars_append, List.length_append]
    rfl
  front := by
    show ∃ t, decode? ((ofChars (front ++ back)).take _) = some t
    rw [ofChars_append, List.take_left]
    exact exists_decode?_ofChars front
  back := by
    show ∃ t, decode? ((ofChars (front ++ back)).drop _) = some t
    rw [ofChars_append, List.drop_left]
    exact exists_decode?_ofChars back

/-- Every cut of the computation divides the text, and it comes to a result that `P` holds of. -/
def Succeeds (text : String) (P : α → Prop) (m : Cutting α) : Prop :=
  (∀ c ∈ m.cuts, c.Divides text) ∧ ∃ a, m.result? = some a ∧ P a

theorem succeeds_pure {a : α} (h : P a) : Succeeds text P (pure a) :=
  ⟨fun _ hc => absurd hc List.not_mem_nil, a, rfl, h⟩

theorem Succeeds.mono {P' : α → Prop} (hm : Succeeds text P m) (h : ∀ a, P a → P' a) :
    Succeeds text P' m := by
  obtain ⟨hcuts, a, ha, hP⟩ := hm
  exact ⟨hcuts, a, ha, h a hP⟩

theorem Succeeds.bind {f : α → Cutting β} (hm : Succeeds text P m)
    (hf : ∀ a, P a → Succeeds text Q (f a)) : Succeeds text Q (m >>= f) := by
  obtain ⟨hcuts, a, ha, hP⟩ := hm
  obtain ⟨hcuts', b, hb, hQ⟩ := hf a hP
  rw [bind_of_result? ha]
  refine ⟨fun c hc => ?_, b, hb, hQ⟩
  rcases List.mem_append.mp hc with hc | hc
  · exact hcuts c hc
  · exact hcuts' c hc

/-- Behind some of its characters, a part of the text is cut into two parts of it. -/
theorem succeeds_cutAt {s : Stretch} {i : Nat} (hs : s = .behind before (front ++ back))
    (hi : i = (ofChars front).length) (htext : text.toList = before ++ (front ++ back) ++ after) :
    Succeeds text
      (fun c => c.front = .behind before front ∧ c.back = .behind (before ++ front) back)
      (cutAt s i) := by
  subst hs hi
  have hboundary : isBoundary (ofChars (front ++ back)) (ofChars front).length = true :=
    isBoundary_ofChars_iff.mpr ⟨front, back, rfl, rfl⟩
  refine ⟨?_, _, if_pos hboundary, ?_, ?_⟩
  · intro c hc
    rw [List.mem_singleton.mp hc]
    exact divides_behind htext
  · simp [Cut.front, Stretch.behind]
  · simp [Cut.back, Cut.position, Stretch.behind]

theorem succeeds_cutAt_whole {i : Nat} (htext : text.toList = front ++ back)
    (hi : i = (ofChars front).length) :
    Succeeds text (fun c => c.front = .behind [] front ∧ c.back = .behind front back)
      (cutAt ⟨0, encode text⟩ i) := by
  have hwhole : (⟨0, encode text⟩ : Stretch) = .behind [] (front ++ back) := by
    rw [← ofChars_toList, htext]
    rfl
  have htext' : text.toList = [] ++ (front ++ back) ++ [] := by
    rw [htext, List.nil_append, List.append_nil]
  exact succeeds_cutAt hwhole hi htext'

theorem succeeds_slice {i j : Nat} (htext : text.toList = before ++ (front ++ back))
    (hi : i = (ofChars before).length) (hj : j = (ofChars (before ++ front)).length) :
    Succeeds text (· = .behind before front) (slice ⟨0, encode text⟩ i j) := by
  have hupTo : text.toList = (before ++ front) ++ back := by
    rw [htext, List.append_assoc]
  refine (succeeds_cutAt_whole hupTo hj).bind ?_
  rintro upTo ⟨hfront, -⟩
  have hcut : text.toList = [] ++ (before ++ front) ++ back := by
    rw [hupTo, List.nil_append]
  refine (succeeds_cutAt hfront hi hcut).bind ?_
  rintro rest ⟨-, hrest⟩
  exact succeeds_pure hrest

/-- A scan succeeds if each of its rounds does, starts where the one before it ended, and leaves
less to be read. -/
theorem succeeds_rounds {left : σ → Nat} {round : σ → Cutting (Round σ α)} {Inv : σ → Prop}
    (hround : ∀ s, Inv s →
      Succeeds text (Round.Leads (fun s' => left s' < left s ∧ Inv s') P) (round s))
    {s : σ} (hs : Inv s) : Succeeds text P (rounds left round s) := by
  induction hn : left s using Nat.strongRecOn generalizing s with
  | ind n ih =>
    subst hn
    rw [rounds]
    refine (hround s hs).bind fun r hr => ?_
    cases r with
    | answer a => exact succeeds_pure hr
    | next s' =>
      obtain ⟨hless, hs'⟩ := hr
      show Succeeds text P (if left s' < left s then rounds left round s' else _)
      rw [if_pos hless]
      exact ih (left s') hless hs' rfl

end Cutting

end MailMerge

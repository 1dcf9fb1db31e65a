import Mathlib.Data.List.Infix
import Mathlib.Data.Set.Function
import Mathlib.InformationTheory.Coding.UniquelyDecodable

/-!
# Prefix-free codes

A code gives each symbol a word.  It is prefix-free on a set of symbols if no word
of one of them begins that of another: then a concatenation of words can be read
in one way only, and so can the words in front of any rest.

Codes are built from smaller ones: a word and a terminator that does not occur in
it (`prefixFreeOn_terminated`), two words one after the other
(`PrefixFreeOn.append`), words of one length (`prefixFreeOn_of_length`).
-/

namespace PrefixCode

open InformationTheory

variable {α β γ : Type*}

/-- No word of a symbol of `s` begins the word of another one. -/
def PrefixFreeOn (code : α → List β) (s : Set α) : Prop :=
  ∀ ⦃a⦄, a ∈ s → ∀ ⦃b⦄, b ∈ s → code a <+: code b → a = b

/-- Lists of symbols that are told apart by `f` are told apart by what it makes of them. -/
theorem map_injOn {f : α → β} {s : Set α} (hf : Set.InjOn f s) :
    Set.InjOn (List.map f) {symbols | ∀ a ∈ symbols, a ∈ s} := by
  intro symbols hsymbols symbols' hsymbols' heq
  induction symbols generalizing symbols' with
  | nil => exact (List.map_eq_nil_iff.mp heq.symm).symm
  | cons a rest ih =>
      cases symbols' with
      | nil => exact absurd heq (List.cons_ne_nil _ _)
      | cons b rest' =>
          obtain ⟨hab, hrest⟩ := List.cons.inj heq
          obtain ⟨ha, hrestmem⟩ := List.forall_mem_cons.mp hsymbols
          obtain ⟨hb, hrestmem'⟩ := List.forall_mem_cons.mp hsymbols'
          rw [hf ha hb hab, ih hrestmem hrestmem' hrest]

section Reading

variable {code : α → List β} {s : Set α} (h : PrefixFreeOn code s)

include h

/-- The word at the front is read in one way. -/
theorem PrefixFreeOn.eq_of_append_eq {a b : α} (ha : a ∈ s) (hb : b ∈ s) {rest rest' : List β}
    (heq : code a ++ rest = code b ++ rest') : a = b ∧ rest = rest' := by
  have hab : a = b := by
    rcases List.prefix_or_prefix_of_prefix (List.prefix_append (code a) rest)
        (heq ▸ List.prefix_append (code b) rest') with hbegins | hbegins
    · exact h ha hb hbegins
    · exact (h hb ha hbegins).symm
  subst hab
  exact ⟨rfl, List.append_cancel_left heq⟩

theorem PrefixFreeOn.injOn : Set.InjOn code s :=
  fun _ ha _ hb heq => h ha hb (heq ▸ List.prefix_rfl)

/-- A set of words none of which is empty and none of which begins another. -/
theorem PrefixFreeOn.uniquelyDecodable (hne : ∀ a ∈ s, code a ≠ []) :
    UniquelyDecodable (code '' s) := by
  intro words words' hwords hwords' heq
  induction words generalizing words' with
  | nil =>
      cases words' with
      | nil => rfl
      | cons word' rest' =>
          obtain ⟨b, hb, rfl⟩ := hwords' word' List.mem_cons_self
          rw [List.flatten_nil, List.flatten_cons] at heq
          exact absurd (List.append_eq_nil_iff.mp heq.symm).1 (hne b hb)
  | cons word rest ih =>
      obtain ⟨a, ha, rfl⟩ := hwords word List.mem_cons_self
      cases words' with
      | nil =>
          rw [List.flatten_nil, List.flatten_cons] at heq
          exact absurd (List.append_eq_nil_iff.mp heq).1 (hne a ha)
      | cons word' rest' =>
          obtain ⟨b, hb, rfl⟩ := hwords' word' List.mem_cons_self
          rw [List.flatten_cons, List.flatten_cons] at heq
          obtain ⟨rfl, hrest⟩ := h.eq_of_append_eq ha hb heq
          have hrests := ih rest' (fun w hw => hwords w (List.mem_cons_of_mem _ hw))
            (fun w hw => hwords' w (List.mem_cons_of_mem _ hw)) hrest
          rw [hrests]

/-- A concatenation of words is read in one way. -/
theorem PrefixFreeOn.flatMap_injOn (hne : ∀ a ∈ s, code a ≠ []) :
    Set.InjOn (fun symbols : List α => symbols.flatMap code) {symbols | ∀ a ∈ symbols, a ∈ s} := by
  intro symbols hsymbols symbols' hsymbols' heq
  have hmem : ∀ {symbols : List α}, (∀ a ∈ symbols, a ∈ s) →
      ∀ w ∈ symbols.map code, w ∈ code '' s := by
    intro symbols hsymbols w hw
    obtain ⟨a, ha, rfl⟩ := List.mem_map.mp hw
    exact ⟨a, hsymbols a ha, rfl⟩
  have hwords : symbols.map code = symbols'.map code := by
    apply h.uniquelyDecodable hne _ _ (hmem hsymbols) (hmem hsymbols')
    simpa only [List.flatMap_def] using heq
  exact map_injOn h.injOn hsymbols hsymbols' hwords

end Reading

/-! ## Building codes -/

/-- A word before a terminator that does not occur in it. -/
theorem prefixFreeOn_terminated (z : β) :
    PrefixFreeOn (fun word : List β => word ++ [z]) {word | z ∉ word} := by
  intro word hword word' hword' hbegins
  induction word generalizing word' with
  | nil =>
      cases word' with
      | nil => rfl
      | cons b rest' =>
          obtain ⟨hb, _⟩ := List.cons_prefix_cons.mp hbegins
          exact absurd (hb ▸ List.mem_cons_self) hword'
  | cons a rest ih =>
      cases word' with
      | nil =>
          obtain ⟨ha, _⟩ := List.cons_prefix_cons.mp hbegins
          exact absurd (ha ▸ List.mem_cons_self) hword
      | cons b rest' =>
          obtain ⟨rfl, hrest⟩ := List.cons_prefix_cons.mp hbegins
          have := ih (fun hz => hword (List.mem_cons_of_mem _ hz))
            (fun hz => hword' (List.mem_cons_of_mem _ hz)) hrest
          rw [this]

/-- Words of one length that tell the symbols apart. -/
theorem prefixFreeOn_of_length {code : α → List β} {s : Set α} {n : ℕ}
    (hlength : ∀ a, (code a).length = n) (hinj : Set.InjOn code s) : PrefixFreeOn code s :=
  fun a ha b hb hbegins =>
    hinj ha hb (hbegins.eq_of_length ((hlength a).trans (hlength b).symm))

/-- The words of two symbols, one after the other. -/
theorem PrefixFreeOn.append {code : α → List β} {code' : γ → List β} {s : Set α} {t : Set γ}
    (h : PrefixFreeOn code s) (h' : PrefixFreeOn code' t) :
    PrefixFreeOn (fun pair : α × γ => code pair.1 ++ code' pair.2) (s ×ˢ t) := by
  intro ⟨a, c⟩ hac ⟨b, d⟩ hbd hbegins
  obtain ⟨rest, heq⟩ := hbegins
  dsimp only at heq
  rw [List.append_assoc] at heq
  obtain ⟨rfl, htail⟩ := h.eq_of_append_eq hac.1 hbd.1 heq
  have hcd : c = d := h' hac.2 hbd.2 ⟨rest, htail⟩
  rw [hcd]

/-- A code for symbols that are told apart by `f`. -/
theorem PrefixFreeOn.comp {code : α → List β} {s : Set α} {f : γ → α} {t : Set γ}
    (h : PrefixFreeOn code s) (hf : Set.InjOn f t) (hmaps : Set.MapsTo f t s) :
    PrefixFreeOn (code ∘ f) t :=
  fun _ ha _ hb hbegins => hf ha hb (h (hmaps ha) (hmaps hb) hbegins)

end PrefixCode

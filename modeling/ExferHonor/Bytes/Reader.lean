import Mathlib.Data.List.Infix

/-! Readers that move a cursor over a text. A reader is exact for a layout when it accepts the
texts of the layout and nothing else; exactness goes through sequencing and counted repetition. -/
namespace Bytes

/-- Reads the text from the cursor on: it fails, or gives a value and the cursor behind it. -/
def Reader (ε β α : Type) : Type := List β → Nat → Except ε (α × Nat)

namespace Reader
variable {ε β α γ : Type}

def pure (value : α) : Reader ε β α := fun _ pos => .ok (value, pos)

def fail (error : ε) : Reader ε β α := fun _ _ => .error error

def bind (reader : Reader ε β α) (next : α → Reader ε β γ) : Reader ε β γ := fun text pos =>
  match reader text pos with
  | .error error => .error error
  | .ok (value, after) => next value text after

instance : Monad (Reader ε β) where
  pure := pure
  bind := bind

def need (n : Nat) (error : Nat → Nat → ε) : Reader ε β Unit := fun text pos =>
  if pos + n > text.length then .error (error pos (text.length - pos)) else .ok ((), pos)

def slice (n : Nat) (read : List β → α) : Reader ε β α := fun text pos =>
  .ok (read ((text.drop pos).take n), pos + n)

/-- `for (let i = 0; i < n; i++) items.push(reader())` -/
def times (reader : Reader ε β α) : Nat → Reader ε β (List α)
  | 0 => pure []
  | n + 1 => reader.bind fun value => (times reader n).bind fun rest => pure (value :: rest)

/-- The values of a layout with their texts: the reader accepts a text of the layout at the cursor,
moves behind it, and accepts nothing else. -/
def Exact (reader : Reader ε β α) (layout : α → List β → Prop) : Prop :=
  ∀ text pos, pos ≤ text.length → ∀ value after, reader text pos = .ok (value, after) ↔
    ∃ own, layout value own ∧ own <+: text.drop pos ∧ after = pos + own.length

def Codes {σ : Type} (read : σ → α) (encode : σ → List β) (value : α) (own : List β) : Prop :=
  ∃ source, read source = value ∧ encode source = own

theorem forall₂_codes {σ : Type} {read : σ → α} {encode : σ → List β} {values : List α}
    {texts : List (List β)} : List.Forall₂ (Codes read encode) values texts ↔
      ∃ sources : List σ, sources.map read = values ∧ sources.map encode = texts := by
  constructor
  · intro all
    induction all with
    | nil => exact ⟨[], rfl, rfl⟩
    | cons first _ ih =>
      obtain ⟨source, rfl, rfl⟩ := first
      obtain ⟨sources, rfl, rfl⟩ := ih
      exact ⟨source :: sources, rfl, rfl⟩
  · rintro ⟨sources, rfl, rfl⟩
    induction sources with
    | nil => exact .nil
    | cons source sources ih => exact .cons ⟨source, rfl, rfl⟩ ih

namespace Exact
variable {reader : Reader ε β α} {layout : α → List β → Prop}

theorem congr {other : α → List β → Prop} (exact_ : Exact reader layout)
    (same : ∀ value own, layout value own ↔ other value own) : Exact reader other := by
  intro text pos within value after
  simp only [exact_ text pos within, same]

theorem pure (value : α) :
    Exact (Reader.pure value : Reader ε β α) fun other own => other = value ∧ own = [] := by
  intro text pos within other after
  simp only [Reader.pure, Except.ok.injEq, Prod.mk.injEq]
  constructor
  · rintro ⟨rfl, rfl⟩
    exact ⟨[], ⟨rfl, rfl⟩, List.nil_prefix, rfl⟩
  · rintro ⟨_, ⟨rfl, rfl⟩, -, rfl⟩
    exact ⟨rfl, rfl⟩

theorem fail (error : ε) : Exact (Reader.fail error : Reader ε β α) fun _ _ => False := by
  intro text pos within value after
  simp [Reader.fail]

theorem block (n : Nat) (error : Nat → Nat → ε) (read : List β → α) :
    Exact ((Reader.need n error).bind fun _ => Reader.slice n read) fun value own =>
      own.length = n ∧ value = read own := by
  intro text pos within value after
  unfold Reader.bind Reader.need Reader.slice
  by_cases short : pos + n > text.length
  · simp only [if_pos short, reduceCtorEq, false_iff]
    rintro ⟨own, ⟨rfl, -⟩, starts, -⟩
    have := starts.length_le
    rw [List.length_drop] at this
    omega
  · simp only [if_neg short, Except.ok.injEq, Prod.mk.injEq]
    constructor
    · rintro ⟨rfl, rfl⟩
      have hlength : ((text.drop pos).take n).length = n := by
        rw [List.length_take, List.length_drop]
        omega
      exact ⟨_, ⟨hlength, rfl⟩, List.take_prefix n _, by rw [hlength]⟩
    · rintro ⟨own, ⟨rfl, rfl⟩, starts, rfl⟩
      rw [← List.prefix_iff_eq_take.1 starts]
      exact ⟨rfl, rfl⟩

theorem bind {next : α → Reader ε β γ} {rest : α → γ → List β → Prop}
    (first : Exact reader layout) (second : ∀ value, Exact (next value) (rest value)) :
    Exact (reader.bind next) fun result own =>
      ∃ value front back, layout value front ∧ rest value result back ∧ own = front ++ back := by
  intro text pos within result after
  constructor
  · intro read
    unfold Reader.bind at read
    split at read
    next => cases read
    next value middle hfirst =>
      obtain ⟨front, hfront, ⟨tail, htail⟩, rfl⟩ := (first text pos within value middle).1 hfirst
      have inside : pos + front.length ≤ text.length := by
        have := congrArg List.length htail
        simp only [List.length_append, List.length_drop] at this
        omega
      obtain ⟨back, hback, starts, rfl⟩ := (second value text _ inside result after).1 read
      refine ⟨front ++ back, ⟨value, front, back, hfront, hback, rfl⟩, ?_, ?_⟩
      · rw [← List.drop_drop, ← htail, List.drop_left] at starts
        rw [← htail]
        exact (List.prefix_append_right_inj front).2 starts
      · simp [Nat.add_assoc]
  · rintro ⟨_, ⟨value, front, back, hfront, hback, rfl⟩, ⟨tail, htail⟩, rfl⟩
    have hfirst := (first text pos within value _).2
      ⟨front, hfront, ⟨back ++ tail, by rw [← htail, List.append_assoc]⟩, rfl⟩
    have inside : pos + front.length ≤ text.length := by
      have := congrArg List.length htail
      simp only [List.length_append, List.length_drop] at this
      omega
    unfold Reader.bind
    rw [hfirst]
    refine (second value text _ inside result _).2 ⟨back, hback, ⟨tail, ?_⟩, ?_⟩
    · rw [← List.drop_drop, ← htail, List.append_assoc, List.drop_left]
    · simp [Nat.add_assoc]

theorem ite {p : Prop} [Decidable p] {other : Reader ε β α} {others : α → List β → Prop}
    (yes : Exact reader layout) (no : Exact other others) :
    Exact (if p then reader else other) fun value own =>
      if p then layout value own else others value own := by
  split
  · exact yes
  · exact no

theorem times (exact_ : Exact reader layout) (n : Nat) :
    Exact (reader.times n) fun values own =>
      ∃ texts, values.length = n ∧ List.Forall₂ layout values texts ∧ own = texts.flatten := by
  induction n with
  | zero =>
    refine (Exact.pure []).congr fun values own => ⟨?_, ?_⟩
    · rintro ⟨rfl, rfl⟩
      exact ⟨[], rfl, .nil, rfl⟩
    · rintro ⟨texts, hlength, hall, rfl⟩
      obtain rfl := List.length_eq_zero_iff.1 hlength
      cases hall
      exact ⟨rfl, rfl⟩
  | succ n ih =>
    refine (exact_.bind fun value => ih.bind fun rest => Exact.pure (value :: rest)).congr ?_
    intro values own
    constructor
    · rintro ⟨value, front, _, hfront, ⟨rest, _, _, ⟨texts, rfl, hall, rfl⟩, ⟨rfl, rfl⟩, rfl⟩, rfl⟩
      exact ⟨front :: texts, rfl, .cons hfront hall, by simp⟩
    · rintro ⟨_, hlength, hall, rfl⟩
      cases hall with
      | nil => cases hlength
      | @cons value front rest texts hfront hall =>
        exact ⟨value, front, texts.flatten, hfront, ⟨rest, texts.flatten, [],
          ⟨texts, Nat.succ.inj hlength, hall, rfl⟩, ⟨rfl, rfl⟩, by simp⟩, rfl⟩

theorem times_codes {σ : Type} {read : σ → α} {encode : σ → List β}
    (exact_ : Exact reader (Codes read encode)) (n : Nat) :
    Exact (reader.times n) fun values own => ∃ sources : List σ, sources.length = n ∧
      sources.map read = values ∧ own = sources.flatMap encode := by
  refine (exact_.times n).congr fun values own => ⟨?_, ?_⟩
  · rintro ⟨texts, hlength, hall, rfl⟩
    obtain ⟨sources, rfl, rfl⟩ := forall₂_codes.1 hall
    exact ⟨sources, by simpa using hlength, rfl, List.flatMap_def.symm⟩
  · rintro ⟨sources, rfl, rfl, rfl⟩
    exact ⟨sources.map encode, by simp, forall₂_codes.2 ⟨sources, rfl, rfl⟩,
      List.flatMap_def⟩

theorem unique (exact_ : Exact reader layout) {value other : α} {own others text : List β}
    (first : layout value own) (hfirst : own <+: text) (second : layout other others)
    (hsecond : others <+: text) : value = other ∧ own.length = others.length := by
  have hown := (exact_ text 0 (Nat.zero_le _) value _).2 ⟨own, first, hfirst, rfl⟩
  rw [(exact_ text 0 (Nat.zero_le _) other _).2 ⟨others, second, hsecond, rfl⟩] at hown
  simp only [Except.ok.injEq, Prod.mk.injEq] at hown
  exact ⟨hown.1.symm, by omega⟩

/-- Nothing shorter than a text of the layout is accepted in its place. -/
theorem fails_of_proper_prefix (exact_ : Exact reader layout) {value : α} {own text : List β}
    (complete : layout value own) (cut : text <+: own) (proper : text ≠ own) :
    ∃ error, reader text 0 = .error error := by
  cases hread : reader text 0 with
  | error error => exact ⟨error, rfl⟩
  | ok result =>
    obtain ⟨others, other, starts, -⟩ := (exact_ text 0 (Nat.zero_le _) result.1 result.2).1 hread
    have same := (exact_.unique complete (List.prefix_refl own) other (starts.trans cut)).2
    have short := List.IsPrefix.length_le starts
    exact absurd (cut.eq_of_length (le_antisymm cut.length_le (by simp_all))) proper

end Exact
end Reader
end Bytes

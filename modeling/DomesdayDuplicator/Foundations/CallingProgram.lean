import Mathlib.Data.List.Basic

/-!
# Programs that make calls

A program has returned, or it makes a call and goes on with the answer; one that has
taken all the turns it was given is cut off. The answers are anyone's: what a program
guarantees, it guarantees of every conversation it can have.
-/

namespace CallingProgram

universe u v

inductive Program (Call : Type u) (Answer : Call → Type v) (α : Type v) where
  | done (result : α)
  | call (c : Call) (next : Answer c → Program Call Answer α)
  | cutOff

/-- A call with its answer. -/
abbrev Exchange {Call : Type u} (Answer : Call → Type v) := (c : Call) × Answer c

variable {Call : Type u} {Answer : Call → Type v} {α β : Type v}

namespace Program

def bind : Program Call Answer α → (α → Program Call Answer β) → Program Call Answer β
  | done result, rest => rest result
  | call c next, rest => call c fun x => (next x).bind rest
  | cutOff, _ => cutOff

instance : Monad (Program Call Answer) where
  pure := done
  bind := bind

end Program

def ask {Call : Type u} {Answer : Call → Type v} (c : Call) : Program Call Answer (Answer c) :=
  .call c .done

open Program

/-- The program can have this conversation and be the second one after it. -/
inductive After : Program Call Answer α → List (Exchange Answer) → Program Call Answer α → Prop
  | refl (p) : After p [] p
  | call {c next log q} (x : Answer c) : After (next x) log q →
      After (call c next) (⟨c, x⟩ :: log) q

/-- A conversation the program returns from. -/
def Returns (p : Program Call Answer α) (log : List (Exchange Answer)) (result : α) : Prop :=
  After p log (done result)

/-- A conversation that leaves the program without a turn. -/
def CutOff (p : Program Call Answer α) (log : List (Exchange Answer)) : Prop :=
  After p log cutOff

variable {p : Program Call Answer α} {log : List (Exchange Answer)}

@[simp] theorem returns_pure {a b : α} :
    Returns (pure a : Program Call Answer α) log b ↔ log = [] ∧ b = a := by
  constructor
  · rintro ⟨⟩
    exact ⟨rfl, rfl⟩
  · rintro ⟨rfl, rfl⟩
    exact .refl _

@[simp] theorem not_returns_cutOff {b : α} :
    ¬ Returns (cutOff : Program Call Answer α) log b := by
  rintro ⟨⟩

@[simp] theorem not_cutOff_pure {a : α} : ¬ CutOff (pure a : Program Call Answer α) log := by
  rintro ⟨⟩

@[simp] theorem cutOff_cutOff :
    CutOff (cutOff : Program Call Answer α) log ↔ log = [] := by
  constructor
  · rintro ⟨⟩
    rfl
  · rintro rfl
    exact .refl _

theorem after_call {c : Call} {next : Answer c → Program Call Answer α}
    {q : Program Call Answer α} (moved : q ≠ call c next) :
    After (call c next) log q ↔ ∃ x rest, log = ⟨c, x⟩ :: rest ∧ After (next x) rest q := by
  constructor
  · intro h
    cases h with
    | refl => exact absurd rfl moved
    | call x h => exact ⟨x, _, rfl, h⟩
  · rintro ⟨x, rest, rfl, h⟩
    exact .call x h

theorem After.bind {q : Program Call Answer α} (h : After p log q)
    (f : α → Program Call Answer β) : After (p >>= f) log (q >>= f) := by
  induction h with
  | refl => exact .refl _
  | call x _ ih => exact .call x ih

theorem After.append {q r : Program Call Answer α} {more : List (Exchange Answer)}
    (first : After p log q) (second : After q more r) : After p (log ++ more) r := by
  induction first with
  | refl => exact second
  | call x _ ih => exact .call x (ih second)

/-- The conversation of two programs one after the other. -/
theorem after_bind {f : α → Program Call Answer β} {r : Program Call Answer β}
    (h : After (p >>= f) log r) :
    (∃ q, After p log q ∧ r = q >>= f) ∨
      ∃ a one two, log = one ++ two ∧ Returns p one a ∧ After (f a) two r := by
  induction p generalizing log with
  | done a => exact Or.inr ⟨a, [], log, rfl, .refl _, h⟩
  | cutOff =>
    cases h
    exact Or.inl ⟨cutOff, .refl _, rfl⟩
  | call c next ih =>
    cases h with
    | refl => exact Or.inl ⟨call c next, .refl _, rfl⟩
    | call x h =>
      rcases ih x h with ⟨q, inside, rfl⟩ | ⟨a, one, two, rfl, returned, rest⟩
      · exact Or.inl ⟨q, .call x inside, rfl⟩
      · exact Or.inr ⟨a, ⟨c, x⟩ :: one, two, rfl, .call x returned, rest⟩

theorem returns_bind {f : α → Program Call Answer β} {b : β} :
    Returns (p >>= f) log b ↔
      ∃ a one two, log = one ++ two ∧ Returns p one a ∧ Returns (f a) two b := by
  constructor
  · intro h
    rcases after_bind h with ⟨q, inside, same⟩ | passed
    · cases q with
      | done a => exact ⟨a, log, [], by simp, inside, by rw [Returns, same]; exact .refl _⟩
      | call c next => cases same
      | cutOff => cases same
    · exact passed
  · rintro ⟨a, one, two, rfl, first, second⟩
    exact (first.bind f).append second

theorem cutOff_bind {f : α → Program Call Answer β} :
    CutOff (p >>= f) log ↔ CutOff p log ∨
      ∃ a one two, log = one ++ two ∧ Returns p one a ∧ CutOff (f a) two := by
  constructor
  · intro h
    rcases after_bind h with ⟨q, inside, same⟩ | passed
    · cases q with
      | done a => exact Or.inr ⟨a, log, [], by simp, inside, by rw [CutOff, same]; exact .refl _⟩
      | call c next => cases same
      | cutOff => exact Or.inl inside
    · exact Or.inr passed
  · rintro (inside | ⟨a, one, two, rfl, first, second⟩)
    · exact inside.bind f
    · exact (first.bind f).append second

@[simp] theorem returns_ask {c : Call} {x : Answer c} {log : List (Exchange Answer)} :
    Returns (ask c) log x ↔ log = [⟨c, x⟩] := by
  constructor
  · rintro (_ | ⟨x, ⟨⟩⟩)
    rfl
  · rintro rfl
    exact .call x (.refl _)

@[simp] theorem not_cutOff_ask {c : Call} {log : List (Exchange Answer)} :
    ¬ CutOff (ask c) log := by
  rintro (_ | ⟨x, ⟨⟩⟩)

theorem returns_ask_bind {c : Call} {f : Answer c → Program Call Answer α} {b : α} :
    Returns (ask c >>= f) log b ↔
      ∃ x rest, log = ⟨c, x⟩ :: rest ∧ Returns (f x) rest b :=
  after_call nofun

theorem cutOff_ask_bind {c : Call} {f : Answer c → Program Call Answer α} :
    CutOff (ask c >>= f) log ↔ ∃ x rest, log = ⟨c, x⟩ :: rest ∧ CutOff (f x) rest :=
  after_call nofun

/-! ## What a program waits for -/

/-- It is cut off no earlier than after so many turns of the other party. -/
def Lasts (turn : Exchange Answer → Bool) (turns : Nat) (p : Program Call Answer α) : Prop :=
  ∀ log, CutOff p log → turns ≤ log.countP turn

variable {turn : Exchange Answer → Bool} {turns : Nat}

@[simp] theorem lasts_pure (a : α) : Lasts turn turns (pure a : Program Call Answer α) :=
  fun _ cut => absurd cut not_cutOff_pure

theorem lasts_bind {f : α → Program Call Answer β} (first : Lasts turn turns p)
    (second : ∀ a, Lasts turn turns (f a)) : Lasts turn turns (p >>= f) := by
  intro log cut
  rcases cutOff_bind.mp cut with inside | ⟨a, one, two, rfl, -, later⟩
  · exact first log inside
  · rw [List.countP_append]
    exact Nat.le_add_left_of_le (second a two later)

theorem lasts_ask {c : Call} {f : Answer c → Program Call Answer α}
    (next : ∀ x, Lasts turn turns (f x)) : Lasts turn turns (ask c >>= f) :=
  lasts_bind (fun _ cut => absurd cut not_cutOff_ask) next

/-- One turn more for an answer that is one. -/
theorem lasts_turn {c : Call} {f : Answer c → Program Call Answer α}
    (next : ∀ x, Lasts turn (if turn ⟨c, x⟩ then turns - 1 else turns) (f x)) :
    Lasts turn turns (ask c >>= f) := by
  intro log cut
  obtain ⟨x, rest, rfl, later⟩ := cutOff_ask_bind.mp cut
  have enough := next x rest later
  rw [List.countP_cons]
  split at enough
  · rw [if_pos ‹_›]
    omega
  · rw [if_neg ‹_›]
    exact enough

/-! ## The calls a program can make -/

def Only (allowed : Call → Prop) : Program Call Answer α → Prop
  | done _ | cutOff => True
  | call c next => allowed c ∧ ∀ x, Only allowed (next x)

theorem only_bind {allowed : Call → Prop} {f : α → Program Call Answer β}
    (first : Only allowed p) (second : ∀ a, Only allowed (f a)) : Only allowed (p >>= f) := by
  induction p with
  | done a => exact second a
  | cutOff => trivial
  | call c next ih => exact ⟨first.left, fun x => ih x (first.right x)⟩

theorem only_ask {allowed : Call → Prop} {c : Call} {f : Answer c → Program Call Answer α}
    (here : allowed c) (later : ∀ x, Only allowed (f x)) : Only allowed (ask c >>= f) :=
  ⟨here, later⟩

theorem Only.mono {allowed wider : Call → Prop} (only : Only allowed p)
    (h : ∀ c, allowed c → wider c) : Only wider p := by
  induction p with
  | done _ => trivial
  | cutOff => trivial
  | call c next ih => exact ⟨h c only.left, fun x => ih x (only.right x)⟩

theorem Only.calls {allowed : Call → Prop} {q : Program Call Answer α} (only : Only allowed p)
    (h : After p log q) : ∀ e ∈ log, allowed e.1 := by
  induction h with
  | refl => simp
  | call x _ ih =>
    rintro e (_ | ⟨_, later⟩)
    · exact only.left
    · exact ih (only.right x) e later

/-! ## What a program can return -/

def Yields (post : α → Prop) : Program Call Answer α → Prop
  | done result => post result
  | cutOff => True
  | call _ next => ∀ x, Yields post (next x)

theorem yields_bind {between : α → Prop} {post : β → Prop} {f : α → Program Call Answer β}
    (first : Yields between p) (second : ∀ a, between a → Yields post (f a)) :
    Yields post (p >>= f) := by
  induction p with
  | done a => exact second a first
  | cutOff => trivial
  | call c next ih => exact fun x => ih x (first x)

theorem yields_ask {post : α → Prop} {c : Call} {f : Answer c → Program Call Answer α}
    (later : ∀ x, Yields post (f x)) : Yields post (ask c >>= f) := later

theorem Yields.returns {post : α → Prop} {a : α} (h : Yields post p) (r : Returns p log a) :
    post a := by
  induction p generalizing log with
  | done b =>
    obtain ⟨-, rfl⟩ := returns_pure.mp r
    exact h
  | cutOff => exact absurd r not_returns_cutOff
  | call c next ih =>
    cases r with
    | call x rest => exact ih x (h x) rest

/-! ## Inside a larger conversation -/

section Lift

universe w

variable {Other : Type w} {Reply : Other → Type v} {f : Call → Other}

/-- The program with its calls as calls of a wider kind. -/
def lift (f : Call → Other) : Program Call (fun c => Reply (f c)) α → Program Other Reply α
  | done result => done result
  | cutOff => cutOff
  | call c next => call (f c) fun x => lift f (next x)

/-- An exchange as one of the wider kind. -/
def wide (f : Call → Other) (e : Exchange fun c => Reply (f c)) : Exchange Reply := ⟨f e.1, e.2⟩

theorem after_lift {p : Program Call (fun c => Reply (f c)) α} {log : List (Exchange Reply)}
    {q : Program Other Reply α} (h : After (lift f p) log q) :
    ∃ inner p', log = inner.map (wide f) ∧ q = lift f p' ∧ After p inner p' := by
  induction p generalizing log with
  | done result =>
    cases h
    exact ⟨[], done result, rfl, rfl, .refl _⟩
  | cutOff =>
    cases h
    exact ⟨[], cutOff, rfl, rfl, .refl _⟩
  | call c next ih =>
    cases h with
    | refl => exact ⟨[], call c next, rfl, rfl, .refl _⟩
    | call x h =>
      obtain ⟨inner, p', rfl, rfl, inside⟩ := ih x h
      refine ⟨⟨c, x⟩ :: inner, p', rfl, rfl, ?_⟩
      apply After.call
      exact inside

theorem returns_lift {p : Program Call (fun c => Reply (f c)) α} {log : List (Exchange Reply)}
    {a : α} (h : Returns (lift f p) log a) :
    ∃ inner, log = inner.map (wide f) ∧ Returns p inner a := by
  obtain ⟨inner, p', rfl, same, inside⟩ := after_lift h
  cases p' with
  | done b =>
    cases same
    exact ⟨inner, rfl, inside⟩
  | call c next => cases same
  | cutOff => cases same

end Lift

/-! ## Against one party -/

/-- The conversation with a party that answers each call the same way, and how it ends. -/
def play (party : (c : Call) → Answer c) : Program Call Answer α → List (Exchange Answer) × Option α
  | done a => ([], some a)
  | cutOff => ([], none)
  | call c next =>
    let rest := play party (next (party c))
    (⟨c, party c⟩ :: rest.1, rest.2)

theorem play_bind (party : (c : Call) → Answer c) (p : Program Call Answer α)
    (f : α → Program Call Answer β) :
    (play party (p >>= f)).2 = (play party p).2.bind fun a => (play party (f a)).2 := by
  induction p with
  | done a => rfl
  | cutOff => rfl
  | call c next ih => exact ih (party c)

theorem play_ask_bind (party : (c : Call) → Answer c) (c : Call)
    (f : Answer c → Program Call Answer α) :
    (play party (ask c >>= f)).2 = (play party (f (party c))).2 := rfl

theorem returns_play {party : (c : Call) → Answer c} {a : α} (ends : (play party p).2 = some a) :
    Returns p (play party p).1 a := by
  induction p with
  | done b =>
    obtain rfl := Option.some.inj ends
    exact .refl _
  | cutOff => cases ends
  | call c next ih => exact .call _ (ih (party c) ends)

end CallingProgram

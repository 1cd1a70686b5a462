import Mathlib.Logic.Relation

/-!
# Two parties and two queues

Each party takes the messages of the other one in the order in which they were sent; a message
that it takes changes its state and makes it send more. The two take turns in any order, and any
number of messages may be under way. What a party does depends on nothing but the messages it has
taken, so a statement about both of them follows from what each does alone with a prefix of what
the other one has sent.
-/

namespace Edgessh.Dialogue

variable {σ τ μ : Type}

/-- A party: its state, what it has sent, and how much of the other's messages it has taken. -/
structure Party (σ μ : Type) where
  state : σ
  sent : List μ
  taken : Nat := 0

structure Talk (σ τ μ : Type) where
  left : Party σ μ
  right : Party τ μ

/-- The new states and the messages that a party may come to when it takes a message. -/
abbrev Behaviour (σ μ : Type) := σ → μ → σ → List μ → Prop

/-- One of the parties takes its next message. -/
inductive Step (L : Behaviour σ μ) (R : Behaviour τ μ) : Talk σ τ μ → Talk σ τ μ → Prop
  | left {d : Talk σ τ μ} {m : μ} {s : σ} {out : List μ} :
      d.right.sent[d.left.taken]? = some m → L d.left.state m s out →
      Step L R d { d with left := ⟨s, d.left.sent ++ out, d.left.taken + 1⟩ }
  | right {d : Talk σ τ μ} {m : μ} {s : τ} {out : List μ} :
      d.left.sent[d.right.taken]? = some m → R d.right.state m s out →
      Step L R d { d with right := ⟨s, d.right.sent ++ out, d.right.taken + 1⟩ }

/-- The dialogues that two parties come to. -/
abbrev Reaches (L : Behaviour σ μ) (R : Behaviour τ μ) :
    Talk σ τ μ → Talk σ τ μ → Prop :=
  Relation.ReflTransGen (Step L R)

/-- What one party does alone: the messages it takes, where it comes to, and all it has sent. -/
inductive LocalRun (B : Behaviour σ μ) (p₀ : Party σ μ) : List μ → σ → List μ → Prop
  | start : LocalRun B p₀ [] p₀.state p₀.sent
  | take {ins : List μ} {s : σ} {sent : List μ} {m : μ} {s' : σ} {out : List μ} :
      LocalRun B p₀ ins s sent → B s m s' out → LocalRun B p₀ (ins ++ [m]) s' (sent ++ out)

/-- A party only adds to what it has sent. -/
theorem LocalRun.sent_eq {B : Behaviour σ μ} {p₀ : Party σ μ} {ins : List μ} {s : σ}
    {sent : List μ} (h : LocalRun B p₀ ins s sent) : ∃ out, sent = p₀.sent ++ out := by
  induction h with
  | start => exact ⟨[], (List.append_nil _).symm⟩
  | take _ _ ih =>
    obtain ⟨out, rfl⟩ := ih
    exact ⟨out ++ _, List.append_assoc ..⟩

/-- What every message keeps, of the messages taken, the state and what has been sent since the
start, holds of a party alone; the first message is known. -/
theorem LocalRun.invariant {B : Behaviour σ μ} {p₀ : Party σ μ} {I : List μ → σ → List μ → Prop}
    {first : μ} (h₀ : I [] p₀.state [])
    (hstep : ∀ {ins s out m s' out'}, (∀ m ∈ ins.head?, m = first) → I ins s out →
      B s m s' out' → I (ins ++ [m]) s' (out ++ out'))
    {ins : List μ} {s : σ} {sent : List μ} (h : LocalRun B p₀ ins s sent)
    (hfirst : ∀ m ∈ ins.head?, m = first) : ∃ out, sent = p₀.sent ++ out ∧ I ins s out := by
  induction h with
  | start => exact ⟨[], (List.append_nil _).symm, h₀⟩
  | @take ins _ _ m _ out' _ htake ih =>
    have hhead : ∀ m' ∈ ins.head?, m' = first := by
      intro m' hm'
      cases ins with
      | nil => cases hm'
      | cons a ins => exact hfirst m' hm'
    obtain ⟨out, rfl, hI⟩ := ih hhead
    exact ⟨out ++ out', List.append_assoc .., hstep hhead hI htake⟩

/-- A party has come to its state by itself, with the first messages of the other one. -/
def Party.Alone (B : Behaviour σ μ) (p p₀ : Party σ μ) (incoming : List μ) : Prop :=
  p.taken ≤ incoming.length ∧ LocalRun B p₀ (incoming.take p.taken) p.state p.sent

namespace Party.Alone

variable {B : Behaviour σ μ} {p₀ p : Party σ μ} {incoming : List μ}

theorem start (p : Party σ μ) (h : p.taken = 0) : p.Alone B p incoming := by
  refine ⟨h ▸ Nat.zero_le _, ?_⟩
  rw [h, List.take_zero]
  exact .start

/-- More messages of the other party change nothing. -/
theorem append (h : p.Alone B p₀ incoming) (out : List μ) : p.Alone B p₀ (incoming ++ out) := by
  obtain ⟨hle, hrun⟩ := h
  refine ⟨?_, ?_⟩
  · rw [List.length_append]
    exact Nat.le_add_right_of_le hle
  · rw [List.take_append_of_le_length hle]
    exact hrun

/-- The party takes the next one. -/
theorem take {m : μ} {s : σ} {out : List μ} (h : p.Alone B p₀ incoming)
    (hm : incoming[p.taken]? = some m) (hstep : B p.state m s out) :
    Party.Alone B ⟨s, p.sent ++ out, p.taken + 1⟩ p₀ incoming := by
  obtain ⟨hlt, -⟩ := List.getElem?_eq_some_iff.mp hm
  refine ⟨hlt, ?_⟩
  show LocalRun B p₀ (incoming.take (p.taken + 1)) s (p.sent ++ out)
  rw [List.take_add_one, hm]
  exact .take h.2 hstep

/-- What it has taken is a prefix of what has been sent to it. -/
theorem localRun (h : p.Alone B p₀ incoming) :
    ∃ ins, List.IsPrefix ins incoming ∧ ins.length = p.taken ∧
      LocalRun B p₀ ins p.state p.sent :=
  ⟨_, List.take_prefix _ _, List.length_take_of_le h.1, h.2⟩

/-- With the next message it is a longer one. -/
theorem concat_prefix {ins incoming : List μ} {m : μ} {n : Nat}
    (h : List.IsPrefix ins incoming) (hlen : ins.length = n) (hm : incoming[n]? = some m) :
    List.IsPrefix (ins ++ [m]) incoming := by
  obtain ⟨rest, rfl⟩ := h
  rw [← hlen, List.getElem?_append_right (Nat.le_refl _), Nat.sub_self] at hm
  cases rest with
  | nil => cases hm
  | cons a rest =>
    obtain rfl := Option.some.inj hm
    exact ⟨rest, List.append_assoc ..⟩

end Party.Alone

/-- Whatever the order of the steps, each party has come to its state by itself. -/
theorem alone_of_reaches {L : Behaviour σ μ} {R : Behaviour τ μ} {d₀ d : Talk σ τ μ}
    (hleft : d₀.left.taken = 0) (hright : d₀.right.taken = 0) (h : Reaches L R d₀ d) :
    d.left.Alone L d₀.left d.right.sent ∧ d.right.Alone R d₀.right d.left.sent := by
  induction h with
  | refl => exact ⟨.start _ hleft, .start _ hright⟩
  | tail _ hstep ih =>
    cases hstep with
    | left hm htake => exact ⟨ih.1.take hm htake, ih.2.append _⟩
    | right hm htake => exact ⟨ih.1.append _, ih.2.take hm htake⟩

section Play

variable {L : Behaviour σ μ} {R : Behaviour τ μ} {f : μ → σ → Option (σ × List μ)}
  {g : μ → τ → Option (τ × List μ)}

/-- The left party takes its next message, if there is one that it can take. -/
def Talk.takeLeft (f : μ → σ → Option (σ × List μ)) (d : Talk σ τ μ) : Talk σ τ μ :=
  match (d.right.sent[d.left.taken]?).bind (f · d.left.state) with
  | some (s, out) => { d with left := ⟨s, d.left.sent ++ out, d.left.taken + 1⟩ }
  | none => d

def Talk.takeRight (g : μ → τ → Option (τ × List μ)) (d : Talk σ τ μ) : Talk σ τ μ :=
  match (d.left.sent[d.right.taken]?).bind (g · d.right.state) with
  | some (s, out) => { d with right := ⟨s, d.right.sent ++ out, d.right.taken + 1⟩ }
  | none => d

/-- The two take turns. -/
def Talk.play (f : μ → σ → Option (σ × List μ)) (g : μ → τ → Option (τ × List μ)) :
    Nat → Talk σ τ μ → Talk σ τ μ
  | 0, d => d
  | n + 1, d => play f g n ((d.takeLeft f).takeRight g)

theorem reaches_takeLeft (hf : ∀ {m s s' out}, f m s = some (s', out) → L s m s' out)
    (d : Talk σ τ μ) : Reaches L R d (d.takeLeft f) := by
  unfold Talk.takeLeft
  cases h : (d.right.sent[d.left.taken]?).bind (f · d.left.state) with
  | none => exact .refl
  | some p =>
    obtain ⟨m, hm, htake⟩ := Option.bind_eq_some_iff.mp h
    exact .single (.left hm (hf htake))

theorem reaches_takeRight (hg : ∀ {m s s' out}, g m s = some (s', out) → R s m s' out)
    (d : Talk σ τ μ) : Reaches L R d (d.takeRight g) := by
  unfold Talk.takeRight
  cases h : (d.left.sent[d.right.taken]?).bind (g · d.right.state) with
  | none => exact .refl
  | some p =>
    obtain ⟨m, hm, htake⟩ := Option.bind_eq_some_iff.mp h
    exact .single (.right hm (hg htake))

theorem reaches_play (hf : ∀ {m s s' out}, f m s = some (s', out) → L s m s' out)
    (hg : ∀ {m s s' out}, g m s = some (s', out) → R s m s' out) (n : Nat) (d : Talk σ τ μ) :
    Reaches L R d (d.play f g n) := by
  induction n generalizing d with
  | zero => exact .refl
  | succ n ih =>
    exact ((reaches_takeLeft hf d).trans (reaches_takeRight hg _)).trans (ih _)

end Play

end Edgessh.Dialogue

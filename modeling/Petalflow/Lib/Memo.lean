import Mathlib.Logic.Function.Basic

namespace memo

/-! Functions whose results are kept in a table and found again by a key. -/

variable {A K E V : Type}

/-- A call with a table of earlier results: the result that is found under the key
of the argument, else a new one, which is kept if it is not an error. -/
def call [DecidableEq K] (key : A → K) (f : A → Except E V) (table : K → Option V) (a : A) :
    Except E V × (K → Option V) :=
  match table (key a) with
  | some v => (.ok v, table)
  | none =>
    match f a with
    | .error e => (.error e, table)
    | .ok v => (.ok v, Function.update table (key a) (some v))

def Coherent (key : A → K) (f : A → Except E V) (seen : List A) (table : K → Option V) : Prop :=
  ∀ k v, table k = some v → ∃ a ∈ seen, key a = k ∧ f a = .ok v

def Agree (R : V → V → Prop) : Except E V → Except E V → Prop
  | .ok v, .ok w => R v w
  | .error e, .error e' => e = e'
  | _, _ => False

variable {key : A → K} {f : A → Except E V} {R : V → V → Prop} {seen : List A}
  {table : K → Option V} {a : A}

theorem Coherent.empty : Coherent key f [] fun _ => none := by
  intro k v hnone
  cases hnone

variable (htable : Coherent key f seen table)
include htable

theorem Coherent.mono {more : List A} (hmore : seen ⊆ more) : Coherent key f more table := by
  intro k v hkept
  obtain ⟨b, hb, hresult⟩ := htable k v hkept
  exact ⟨b, hmore hb, hresult⟩

variable [DecidableEq K]

theorem call_agrees (hrefl : ∀ v, R v v) (hsame : ∀ b ∈ seen, key b = key a → Agree R (f b) (f a)) :
    Agree R (call key f table a).1 (f a) := by
  unfold call
  cases hfound : table (key a) with
  | some v =>
    obtain ⟨b, hb, hkey, hresult⟩ := htable (key a) v hfound
    have hagree := hsame b hb hkey
    rw [hresult] at hagree
    exact hagree
  | none =>
    cases hresult : f a with
    | error e => rfl
    | ok v => exact hrefl v

theorem call_coherent : Coherent key f (seen ++ [a]) (call key f table a).2 := by
  have hold := htable.mono (List.subset_append_left seen [a])
  unfold call
  split
  · exact hold
  · split
    · exact hold
    · next v hresult =>
      intro k w hkept
      dsimp only at hkept
      by_cases hk : k = key a
      · subst hk
        rw [Function.update_self] at hkept
        cases hkept
        exact ⟨a, List.mem_append_right _ List.mem_cons_self, rfl, hresult⟩
      · rw [Function.update_of_ne hk] at hkept
        exact hold k w hkept

end memo

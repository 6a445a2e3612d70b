import Mathlib.Data.List.Basic
import Mathlib.Logic.Function.Basic

/-!
# Chains of hashes

A transcript hashes its first message, and then every message behind the hash before it. Two transcripts of equally many
messages with one final hash, or the same part of it, are the same, or two of the words they hash collide (`binding`). The collision is one of the
two transcripts: among all words there always is one.
-/

namespace HashChain

variable {W D : Type*} (h : List W → D) (enc : D → W)

/-- The hash of the last message. -/
def chain (first : List W) (messages : List (List W)) : D :=
  messages.foldl (fun previous m => h (enc previous :: m)) (h first)

/-- All that is hashed on the way. -/
def hashed (first : List W) : List (List W) → List (List W)
  | [] => [first]
  | m :: messages => first :: hashed (enc (h first) :: m) messages

/-- Different words of the two lists with the same hash. -/
def Collide {E : Type*} (h : List W → E) (A B : List (List W)) : Prop := ∃ a ∈ A, ∃ b ∈ B, a ≠ b ∧ h a = h b

variable {h enc} {first first' : List W} {messages messages' : List (List W)}

theorem chain_cons (m : List W) : chain h enc first (m :: messages) = chain h enc (enc (h first) :: m) messages := rfl

theorem chain_append (more : List (List W)) :
    chain h enc first (messages ++ more) = more.foldl (fun previous m => h (enc previous :: m)) (chain h enc first messages) :=
  List.foldl_append ..

theorem Collide.mono {E : Type*} {h : List W → E} {A B A' B' : List (List W)} (hA : ∀ a ∈ A, a ∈ A') (hB : ∀ b ∈ B, b ∈ B')
    (hc : Collide h A B) : Collide h A' B' := by
  obtain ⟨a, ha, b, hb, hne, heq⟩ := hc
  exact ⟨a, hA a ha, b, hB b hb, hne, heq⟩

/-- From what `g` keeps of the final hash on. -/
theorem binding {E : Type*} (g : D → E) (henc : Function.Injective enc) (hlen : messages.length = messages'.length)
    (hchain : g (chain h enc first messages) = g (chain h enc first' messages')) :
    (first = first' ∧ messages = messages') ∨
      Collide (g ∘ h) (hashed h enc first messages) (hashed h enc first' messages') := by
  induction messages generalizing first first' messages' with
  | nil =>
    obtain rfl : messages' = [] := by simpa [eq_comm] using hlen
    by_cases hfirst : first = first'
    · exact .inl ⟨hfirst, rfl⟩
    · exact .inr ⟨first, by simp [hashed], first', by simp [hashed], hfirst, hchain⟩
  | cons m messages ih =>
    obtain ⟨m', messages', rfl⟩ := List.exists_cons_of_length_eq_add_one hlen.symm
    rw [chain_cons, chain_cons] at hchain
    rcases ih (Nat.succ.inj hlen) hchain with ⟨hwords, hmessages⟩ | hcollide
    · obtain ⟨hhash, hm⟩ := List.cons.inj hwords
      by_cases hfirst : first = first'
      · exact .inl ⟨hfirst, by rw [hm, hmessages]⟩
      · exact .inr ⟨first, by simp [hashed], first', by simp [hashed], hfirst, congrArg g (henc hhash)⟩
    · exact .inr (hcollide.mono (fun _ ha => List.mem_cons_of_mem _ ha) fun _ hb => List.mem_cons_of_mem _ hb)

end HashChain

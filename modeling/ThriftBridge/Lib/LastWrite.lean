import Mathlib.Tactic

/-!
# Last writes

A sequence of writes to a store leaves under each key the value of the last write to it.

* `last k ws`: that value;
* `last_append`: the second part wins;
* `last_flatMap_perm`: writes that come in blocks may be reordered, block by block, if all blocks
  that write to the key are the same one.
-/

set_option autoImplicit false

namespace LastWrite

variable {κ ν β : Type} [DecidableEq κ]

/-- The value of the last write to `k`. -/
def last (k : κ) (ws : List (κ × ν)) : Option ν :=
  ((ws.filter fun w => w.1 = k).getLast?).map Prod.snd

variable {k : κ} {ws : List (κ × ν)} {v : ν}

@[simp] theorem last_nil : last k ([] : List (κ × ν)) = none := rfl

theorem last_append (k : κ) (ws ws' : List (κ × ν)) :
    last k (ws ++ ws') = (last k ws').or (last k ws) := by
  simp only [last, List.filter_append, List.getLast?_append]
  cases (ws'.filter fun w => w.1 = k).getLast? <;> rfl

theorem last_singleton (k : κ) (w : κ × ν) : last k [w] = if w.1 = k then some w.2 else none := by
  by_cases h : w.1 = k <;> simp [last, h]

theorem last_concat (k : κ) (ws : List (κ × ν)) (w : κ × ν) :
    last k (ws ++ [w]) = if w.1 = k then some w.2 else last k ws := by
  rw [last_append, last_singleton]
  split_ifs <;> rfl

theorem last_eq_none_iff : last k ws = none ↔ ∀ w ∈ ws, w.1 ≠ k := by
  simp [last]

/-- What is under `k` was written to `k`, and nothing was written to `k` after it. -/
theorem last_eq_some_iff :
    last k ws = some v ↔ ∃ ws₁ ws₂, ws = ws₁ ++ (k, v) :: ws₂ ∧ ∀ w ∈ ws₂, w.1 ≠ k := by
  constructor
  · intro h
    induction ws using List.reverseRecOn with
    | nil => simp at h
    | append_singleton ws w ih =>
        rw [last_concat] at h
        split_ifs at h with hw
        · obtain ⟨a, b⟩ := w
          cases h
          cases hw
          exact ⟨ws, [], rfl, by simp⟩
        · obtain ⟨ws₁, ws₂, rfl, hws⟩ := ih h
          refine ⟨ws₁, ws₂ ++ [w], by simp, ?_⟩
          intro u hu
          rcases List.mem_append.mp hu with hu | hu
          · exact hws u hu
          · rw [List.mem_singleton.mp hu]
            exact hw
  · rintro ⟨ws₁, ws₂, rfl, hws⟩
    have h2 : last k ws₂ = none := last_eq_none_iff.mpr hws
    rw [show ws₁ ++ (k, v) :: ws₂ = (ws₁ ++ [(k, v)]) ++ ws₂ by simp, last_append, h2,
      last_concat, if_pos rfl, Option.none_or]

/-- Blocks of which each writes `v` last, or nothing, leave `v` if one of them writes. -/
theorem last_flatMap_eq_some {f : β → List (κ × ν)} {bs : List β}
    (hall : ∀ b ∈ bs, last k (f b) = none ∨ last k (f b) = some v)
    (hex : ∃ b ∈ bs, last k (f b) = some v) : last k (bs.flatMap f) = some v := by
  induction bs with
  | nil => simp at hex
  | cons b bs ih =>
      rw [List.flatMap_cons, last_append]
      have hall' : ∀ c ∈ bs, last k (f c) = none ∨ last k (f c) = some v :=
        fun c hc => hall c (List.mem_cons_of_mem _ hc)
      by_cases h : ∃ c ∈ bs, last k (f c) = some v
      · rw [ih hall' h, Option.some_or]
      · have hb : last k (f b) = some v := by
          obtain ⟨c, hc, hv⟩ := hex
          rcases List.mem_cons.mp hc with rfl | hc
          · exact hv
          · exact absurd ⟨c, hc, hv⟩ h
        have hn : last k (bs.flatMap f) = none := by
          rw [last_eq_none_iff]
          intro w hw
          obtain ⟨c, hc, hwc⟩ := List.mem_flatMap.mp hw
          rcases hall' c hc with hc' | hc'
          · exact last_eq_none_iff.mp hc' w hwc
          · exact absurd ⟨c, hc, hc'⟩ h
        rw [hn, hb, Option.none_or]

/-- **Order does not matter** for a key that only one block writes to. -/
theorem last_flatMap_perm {f : β → List (κ × ν)} {bs cs : List β} (hp : bs.Perm cs)
    (huniq : ∀ b ∈ bs, ∀ c ∈ bs, last k (f b) ≠ none → last k (f c) ≠ none → b = c) :
    last k (bs.flatMap f) = last k (cs.flatMap f) := by
  by_cases h : ∃ b ∈ bs, last k (f b) ≠ none
  · obtain ⟨b, hb, hne⟩ := h
    obtain ⟨v, hv⟩ := Option.ne_none_iff_exists'.mp hne
    have hall : ∀ c ∈ bs, last k (f c) = none ∨ last k (f c) = some v := by
      intro c hc
      by_cases hcn : last k (f c) = none
      · exact Or.inl hcn
      · rw [← huniq b hb c hc hne hcn]
        exact Or.inr hv
    rw [last_flatMap_eq_some hall ⟨b, hb, hv⟩,
      last_flatMap_eq_some (fun c hc => hall c (hp.mem_iff.mpr hc)) ⟨b, hp.mem_iff.mp hb, hv⟩]
  · push Not at h
    have hnone : ∀ ds : List β, (∀ d ∈ ds, d ∈ bs) → last k (ds.flatMap f) = none := by
      intro ds hds
      rw [last_eq_none_iff]
      intro w hw
      obtain ⟨d, hd, hwd⟩ := List.mem_flatMap.mp hw
      exact last_eq_none_iff.mp (h d (hds d hd)) w hwd
    rw [hnone bs fun _ hd => hd, hnone cs fun d hd => hp.mem_iff.mpr hd]

end LastWrite

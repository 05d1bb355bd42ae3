import Mathlib.Data.Finset.Basic
import Mathlib.Logic.Function.Basic

namespace Owners

variable {τ ι : Type}

-- Each slot in use is with the outside or with one thread on its way in or out, and no other is.
structure Owned (used : ι → Prop) (held : Finset ι) (claim : τ → Option ι) : Prop where
  inUse : ∀ i ∈ held, used i
  claimed : ∀ t i, claim t = some i → used i ∧ i ∉ held
  single : ∀ t u i, claim t = some i → claim u = some i → t = u
  owner : ∀ i, used i → i ∈ held ∨ ∃ t, claim t = some i

variable {used used' : ι → Prop} {held : Finset ι} {claim : τ → Option ι} {t u : τ} {i j : ι}

theorem Owned.congr (h : Owned used held claim) (hused : ∀ i, used' i ↔ used i) :
    Owned used' held claim := by
  rwa [show used' = used from funext fun i => propext (hused i)]

theorem Owned.start (h : ∀ i, ¬used i) : Owned used ∅ fun _ : τ => none :=
  ⟨fun _ hi => absurd hi (Finset.notMem_empty _), fun _ _ hc => (nomatch hc),
    fun _ _ _ hc => (nomatch hc), fun i hi => absurd hi (h i)⟩

variable [DecidableEq τ]

theorem claim_update {o : Option ι} (h : Function.update claim t o u = some j) :
    u = t ∧ o = some j ∨ u ≠ t ∧ claim u = some j := by
  by_cases hut : u = t
  · subst hut
    rw [Function.update_self] at h
    exact .inl ⟨rfl, h⟩
  · rw [Function.update_of_ne hut] at h
    exact .inr ⟨hut, h⟩

-- A thread takes a slot that is not in use.
theorem Owned.take (h : Owned used held claim) (hfree : ¬used i) (hnone : claim t = none)
    (hused : ∀ j, used' j ↔ j = i ∨ used j) :
    Owned used' held (Function.update claim t (some i)) := by
  refine ⟨fun j hj => (hused j).2 (.inr (h.inUse j hj)), fun u j hc => ?_, fun u v j hu hv => ?_,
    fun j hj => ?_⟩
  · rcases claim_update hc with ⟨-, hi⟩ | ⟨-, hc⟩
    · cases hi
      exact ⟨(hused _).2 (.inl rfl), fun hi => hfree (h.inUse _ hi)⟩
    · exact ⟨(hused j).2 (.inr (h.claimed u j hc).1), (h.claimed u j hc).2⟩
  · rcases claim_update hu with ⟨rfl, hi⟩ | ⟨-, hcu⟩
    · cases hi
      rcases claim_update hv with ⟨rfl, -⟩ | ⟨-, hcv⟩
      · rfl
      · exact absurd (h.claimed v _ hcv).1 hfree
    · rcases claim_update hv with ⟨-, hi⟩ | ⟨-, hcv⟩
      · cases hi
        exact absurd (h.claimed u _ hcu).1 hfree
      · exact h.single u v j hcu hcv
  · rcases (hused j).1 hj with rfl | hj
    · exact .inr ⟨t, Function.update_self _ _ _⟩
    · rcases h.owner j hj with hheld | ⟨u, hu⟩
      · exact .inl hheld
      · refine .inr ⟨u, ?_⟩
        rwa [Function.update_of_ne]
        rintro rfl
        rw [hnone] at hu
        cases hu

-- A thread frees the slot it has come with.
theorem Owned.free (h : Owned used held claim) (hclaim : claim t = some i)
    (hused : ∀ j, used' j ↔ j ≠ i ∧ used j) :
    Owned used' held (Function.update claim t none) := by
  refine ⟨fun j hj => (hused j).2 ⟨?_, h.inUse j hj⟩, fun u j hc => ?_, fun u v j hu hv => ?_,
    fun j hj => ?_⟩
  · rintro rfl
    exact (h.claimed t _ hclaim).2 hj
  · rcases claim_update hc with ⟨-, hnone⟩ | ⟨hut, hc⟩
    · cases hnone
    · refine ⟨(hused j).2 ⟨?_, (h.claimed u j hc).1⟩, (h.claimed u j hc).2⟩
      rintro rfl
      exact hut (h.single u t _ hc hclaim)
  · rcases claim_update hu with ⟨-, hnone⟩ | ⟨-, hcu⟩
    · cases hnone
    rcases claim_update hv with ⟨-, hnone⟩ | ⟨-, hcv⟩
    · cases hnone
    exact h.single u v j hcu hcv
  · obtain ⟨hji, hj⟩ := (hused j).1 hj
    rcases h.owner j hj with hheld | ⟨u, hu⟩
    · exact .inl hheld
    · refine .inr ⟨u, ?_⟩
      rwa [Function.update_of_ne]
      rintro rfl
      rw [hclaim] at hu
      exact hji (Option.some.inj hu).symm

variable [DecidableEq ι]

-- A thread leaves a slot to the outside.
theorem Owned.handOut (h : Owned used held claim) (hclaim : claim t = some i) :
    Owned used (insert i held) (Function.update claim t none) := by
  refine ⟨fun j hj => ?_, fun u j hc => ?_, fun u v j hu hv => ?_, fun j hj => ?_⟩
  · rcases Finset.mem_insert.1 hj with rfl | hj
    · exact (h.claimed t _ hclaim).1
    · exact h.inUse j hj
  · rcases claim_update hc with ⟨-, hnone⟩ | ⟨hut, hc⟩
    · cases hnone
    · refine ⟨(h.claimed u j hc).1, fun hj => ?_⟩
      rcases Finset.mem_insert.1 hj with rfl | hj
      · exact hut (h.single u t _ hc hclaim)
      · exact (h.claimed u j hc).2 hj
  · rcases claim_update hu with ⟨-, hnone⟩ | ⟨-, hcu⟩
    · cases hnone
    rcases claim_update hv with ⟨-, hnone⟩ | ⟨-, hcv⟩
    · cases hnone
    exact h.single u v j hcu hcv
  · rcases h.owner j hj with hheld | ⟨u, hu⟩
    · exact .inl (Finset.mem_insert_of_mem hheld)
    · by_cases hut : u = t
      · subst hut
        rw [hclaim] at hu
        cases hu
        exact .inl (Finset.mem_insert_self _ _)
      · exact .inr ⟨u, by rwa [Function.update_of_ne hut]⟩

-- A thread comes in with a slot that the outside has.
theorem Owned.giveBack (h : Owned used held claim) (hi : i ∈ held) (hnone : claim t = none) :
    Owned used (held.erase i) (Function.update claim t (some i)) := by
  refine ⟨fun j hj => h.inUse j (Finset.mem_of_mem_erase hj), fun u j hc => ?_,
    fun u v j hu hv => ?_, fun j hj => ?_⟩
  · rcases claim_update hc with ⟨-, heq⟩ | ⟨-, hc⟩
    · cases heq
      exact ⟨h.inUse _ hi, Finset.notMem_erase _ _⟩
    · exact ⟨(h.claimed u j hc).1, fun hj => (h.claimed u j hc).2 (Finset.mem_of_mem_erase hj)⟩
  · rcases claim_update hu with ⟨rfl, heq⟩ | ⟨-, hcu⟩
    · cases heq
      rcases claim_update hv with ⟨rfl, -⟩ | ⟨-, hcv⟩
      · rfl
      · exact absurd hi (h.claimed v _ hcv).2
    · rcases claim_update hv with ⟨-, heq⟩ | ⟨-, hcv⟩
      · cases heq
        exact absurd hi (h.claimed u _ hcu).2
      · exact h.single u v j hcu hcv
  · rcases h.owner j hj with hheld | ⟨u, hu⟩
    · by_cases hji : j = i
      · subst hji
        exact .inr ⟨t, Function.update_self _ _ _⟩
      · exact .inl (Finset.mem_erase_of_ne_of_mem hji hheld)
    · refine .inr ⟨u, ?_⟩
      rwa [Function.update_of_ne]
      rintro rfl
      rw [hnone] at hu
      cases hu

end Owners

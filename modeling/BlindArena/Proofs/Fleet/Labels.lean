import BlindArena.Proofs.Fleet.Closings

/-!
# Seeds as labels

The seed stored at a place is the base seed, moved on by the place and by the size of the fleet for
every episode closed there. Until these numbers wrap around they are all different, so no two
closings share a seed, and no seed that is stored was closed.
-/

namespace BlindArena

/-- The seed at a place after so many of its episodes, in a fleet of `n`. -/
def label (base : UInt64) (n place count : Nat) : UInt64 :=
  UInt64.ofNat (base.toNat + place + count * n)

section label
variable {base : UInt64} {n place place' count count' : Nat}

theorem toNat_label :
    (label base n place count).toNat = (base.toNat + place + count * n) % UInt64.size :=
  UInt64.toNat_ofNat'

theorem label_zero : label base n place 0 = base + UInt64.ofNat place := by
  simp [label, UInt64.ofNat_add]

theorem label_succ :
    label base n place (count + 1) = label base n place count + UInt64.ofNat n := by
  rw [label, label, ← UInt64.ofNat_add]
  rw [Nat.succ_mul, ← Nat.add_assoc]

theorem label_injective (hplace : place < n) (hplace' : place' < n)
    (hcount : place + count * n < UInt64.size) (hcount' : place' + count' * n < UInt64.size)
    (h : label base n place count = label base n place' count') :
    place = place' ∧ count = count' := by
  have hmod := congrArg UInt64.toNat h
  rw [toNat_label, toNat_label] at hmod
  simp only [UInt64.size] at hcount hcount' hmod
  have heq : place + count * n = place' + count' * n := by omega
  constructor
  · have := congrArg (· % n) heq
    simpa [Nat.mod_eq_of_lt hplace, Nat.mod_eq_of_lt hplace'] using this
  · have hpos : 0 < n := by omega
    have := congrArg (· / n) heq
    simpa [Nat.add_mul_div_right _ _ hpos, Nat.div_eq_of_lt hplace, Nat.div_eq_of_lt hplace']
      using this

end label

def closed (place : Nat) (log : List Closing) : Nat := (log.map (·.place)).count place

/-- The labels that a fleet of `n` has come to are not wrapped around. -/
def Unwrapped (n : Nat) (log : List Closing) : Prop :=
  ∀ place, place < n → place + closed place log * n < UInt64.size

theorem closed_append (place : Nat) (log now : List Closing) :
    closed place (log ++ now) = closed place log + closed place now := by
  simp [closed]

theorem nodup_seeds {base : UInt64} {n : Nat} {log now : List Closing}
    (hplaces : (now.map (·.place)).Nodup)
    (hlabels : ∀ c ∈ now, c.place < n ∧ c.seed = label base n c.place (closed c.place log))
    (hlog : Unwrapped n log) : (now.map (·.seed)).Nodup := by
  rw [List.Nodup, List.pairwise_map] at hplaces ⊢
  refine hplaces.imp_of_mem fun {c d} hc hd hne hseed => hne ?_
  obtain ⟨hplace, hlabel⟩ := hlabels c hc
  obtain ⟨hplace', hlabel'⟩ := hlabels d hd
  rw [hlabel, hlabel'] at hseed
  exact (label_injective hplace hplace' (hlog _ hplace) (hlog _ hplace') hseed).1

theorem closed_of_nodup {place : Nat} {now : List Closing} (h : (now.map (·.place)).Nodup) :
    closed place now = if place ∈ now.map (·.place) then 1 else 0 := h.count

namespace Fleet
variable {σ : Type} {E : Engine σ} {base : UInt64} {n : Nat} {fleet next : Fleet σ}
  {log : List Closing} {reached : Nat → Bool}

/-- The seeds of a fleet are labels: those stored by the number of closings so far, those closed by
an earlier number. -/
structure Labelled (base : UInt64) (n : Nat) (fleet : Fleet σ) (log : List Closing) : Prop where
  size : fleet.size = n
  stored : ∀ (place : Nat) (env : Env σ), fleet.envs[place]? = some env →
    env.seed = label base n place (closed place log)
  past : ∀ c ∈ log, c.place < n ∧ ∃ count < closed c.place log, c.seed = label base n c.place count
  distinct : Unwrapped n log → (log.map (·.seed)).Nodup

theorem place_lt {place : Nat} {env : Env σ} (h : fleet.envs[place]? = some env) :
    place < fleet.size := (List.getElem?_eq_some_iff.1 h).1

theorem labelled_of_make {config : Config} {word : UInt64}
    (h : (make E n config word).1 = .ok fleet) : Labelled (config.seedOr word) n fleet [] := by
  obtain ⟨hsize, hmade⟩ := makeFrom_ok_elim (makeFrom_of_make h)
  exact {
    size := hsize
    stored := fun place env henv => by
      rw [closed, List.map_nil, List.count_nil, label_zero]
      exact Env.seed_of_make (hmade place env henv)
    past := by simp
    distinct := by simp }

/-- The seeds that are stored were never closed. -/
theorem Labelled.fresh (h : Labelled base n fleet log) (hlog : Unwrapped n log) {place : Nat}
    {env : Env σ} (henv : fleet.envs[place]? = some env) : env.seed ∉ log.map (·.seed) := by
  intro hmem
  obtain ⟨c, hc, hseed⟩ := List.mem_map.1 hmem
  obtain ⟨hplace, count, hcount, hpast⟩ := h.past c hc
  rw [hpast, h.stored place env henv] at hseed
  have hn : place < n := h.size ▸ place_lt henv
  have hfits : c.place + count * n < UInt64.size := by
    have := Nat.mul_le_mul_right n (Nat.le_of_lt hcount)
    have := hlog c.place hplace
    omega
  obtain ⟨heq, hcount'⟩ := label_injective hplace hn hfits (hlog place hn) hseed
  rw [heq] at hcount
  omega

/-- A call moves the labels on, whomever it reaches. -/
theorem Labelled.performs (h : Labelled base n fleet log) {call : Call}
    (hcall : fleet.Performs E call reached next) :
    Labelled base n next (log ++ call.closings E fleet reached) := by
  obtain ⟨hsize, hseeds⟩ := seeds_of_performs hcall
  have hplaces : ((call.closings E fleet reached).map (·.place)).Nodup := nodup_closings call
  have hstored : ∀ c ∈ call.closings E fleet reached, c.place < n ∧
      ∃ env, fleet.envs[c.place]? = some env ∧ env.seed = c.seed ∧
        c.seed = label base n c.place (closed c.place log) := by
    intro c hc
    obtain ⟨env, henv, hseed⟩ := stored_of_closings hc
    exact ⟨h.size ▸ place_lt henv, env, henv, hseed, hseed ▸ h.stored _ env henv⟩
  generalize hnow : call.closings E fleet reached = now at *
  have hcount (c : Closing) (hc : c ∈ now) :
      closed c.place (log ++ now) = closed c.place log + 1 := by
    rw [closed_append, closed_of_nodup hplaces, if_pos (List.mem_map_of_mem hc)]
  have hunwrapped : Unwrapped n (log ++ now) → Unwrapped n log := by
    -- labels only grow, so an earlier one that wraps around would have wrapped ever since
    intro hlog place hplace
    have := hlog place hplace
    rw [closed_append, Nat.add_mul] at this
    omega
  exact {
    size := hsize.trans h.size
    stored := fun place env henv => by
      obtain ⟨before, hbefore, hseed⟩ := hseeds place env henv
      rw [hseed, closed_append, closed_of_nodup hplaces, h.stored place before hbefore]
      have hstride : fleet.stride = UInt64.ofNat n := by rw [stride, h.size]
      split
      · rw [label_succ, hstride]
      · rfl
    past := fun c hc => by
      rcases List.mem_append.1 hc with hc | hc
      · obtain ⟨hplace, count, hlt, hseed⟩ := h.past c hc
        exact ⟨hplace, count, by rw [closed_append]; omega, hseed⟩
      · obtain ⟨hplace, _, _, _, hseed⟩ := hstored c hc
        exact ⟨hplace, _, by rw [hcount c hc]; omega, hseed⟩
    distinct := fun hlog => by
      have hlog' := hunwrapped hlog
      have hlabels : ∀ c ∈ now, c.place < n ∧
          c.seed = label base n c.place (closed c.place log) := by
        intro c hc
        obtain ⟨hplace, _, _, _, hlabel⟩ := hstored c hc
        exact ⟨hplace, hlabel⟩
      rw [List.map_append, List.nodup_append]
      refine ⟨h.distinct hlog', nodup_seeds hplaces hlabels hlog', ?_⟩
      rintro seed hseed _ hnew rfl
      obtain ⟨c, hc, rfl⟩ := List.mem_map.1 hnew
      obtain ⟨_, env, henv, hstored, -⟩ := hstored c hc
      exact h.fresh hlog' henv (hstored ▸ hseed) }

end Fleet
end BlindArena

import HueStream.Effects.MultiChannelEffect

/-! # Channels are assigned evenly

The two loops take pairs as the greedy pairing does, a round for each time that all channels are free. So the channels are
assigned evenly, and nothing of an earlier assignment stays. -/

namespace HueStream.Effects.MultiChannelEffect

open HueStream.Data HueStream.Animations HueStream.Lib

variable (sqrt : ℚ → ℚ) {lights : List Light} {channel : Channel} {s : Copies}

/-! ### The loops -/

theorem distance_le (from' to' : Location) : distance sqrt from' to' ≤ INF := min_le_left _ _

theorem closestDistance_le (lights : List Light) (channel : Channel) : closestDistance sqrt lights channel ≤ INF := by
  unfold closestDistance
  cases lights[findClosestLight sqrt lights channel.position]? with
  | none => exact le_rfl
  | some light => exact distance_le sqrt _ _

/-- `FindClosestLight` finds a light at the smallest distance. -/
theorem findClosestLight_spec (hlights : lights ≠ []) (channel : Channel) :
    ∃ light, lights[findClosestLight sqrt lights channel.position]? = some light ∧
      closestDistance sqrt lights channel = distance sqrt channel.position light.position ∧
      ∀ light' ∈ lights, distance sqrt channel.position light.position ≤ distance sqrt channel.position light'.position := by
  obtain ⟨light, hlight, hclosest⟩ := closest_spec hlights fun light _ =>
    distance_le sqrt channel.position light.position
  exact ⟨light, hlight, by rw [closestDistance, findClosestLight, hlight]; rfl, hclosest⟩

theorem exists_split {α : Type} {l : List α} {i : ℕ} {a : α} (h : l[i]? = some a) :
    ∃ before after, l = before ++ a :: after ∧ l.eraseIdx i = before ++ after := by
  obtain ⟨hlt, rfl⟩ := List.getElem?_eq_some_iff.mp h
  refine ⟨l.take i, l.drop (i + 1), ?_, List.eraseIdx_eq_take_drop_succ l i⟩
  rw [List.getElem_cons_drop, List.take_append_drop]

/-- The body of the inner loop takes the closest pair of what is left. -/
theorem assignOne_spec (hchannels : s.channelsCopy ≠ []) (hlights : s.lightsCopy ≠ []) :
    ∃ before after before' after' channel light, s.channelsCopy = before ++ channel :: after ∧
      s.lightsCopy = before' ++ light :: after' ∧
      (∀ channel' ∈ s.channelsCopy, ∀ light' ∈ s.lightsCopy,
        distance sqrt channel.position light.position ≤ distance sqrt channel'.position light'.position) ∧
      assignOne sqrt s = some ⟨before ++ after, before' ++ after', mapInsert s.map (light.id, channel)⟩ := by
  obtain ⟨channel, hchannel, hfirst⟩ := closest_spec hchannels fun channel _ =>
    closestDistance_le sqrt s.lightsCopy channel
  obtain ⟨light, hlight, hdistance, -⟩ := findClosestLight_spec sqrt hlights channel
  obtain ⟨before, after, hsplit, herase⟩ := exists_split hchannel
  obtain ⟨before', after', hsplit', herase'⟩ := exists_split hlight
  refine ⟨before, after, before', after', channel, light, hsplit, hsplit', fun channel' hchannel' light' hlight' => ?_, ?_⟩
  · obtain ⟨light'', -, hdistance', hclosest⟩ := findClosestLight_spec sqrt hlights channel'
    calc distance sqrt channel.position light.position
        = closestDistance sqrt s.lightsCopy channel := hdistance.symm
      _ ≤ closestDistance sqrt s.lightsCopy channel' := hfirst channel' hchannel'
      _ = distance sqrt channel'.position light''.position := hdistance'
      _ ≤ distance sqrt channel'.position light'.position := hclosest light' hlight'
  · have hchannelIt : s.channelsCopy[findChannelWithClosestLight sqrt s.channelsCopy s.lightsCopy]? = some channel :=
      hchannel
    have herased : s.channelsCopy.eraseIdx (findChannelWithClosestLight sqrt s.channelsCopy s.lightsCopy) =
      before ++ after := herase
    simp only [assignOne, hchannelIt, hlight, herased, herase', Option.bind_eq_bind, Option.bind_some]

/-- The entry of a pair. -/
def entry (pick : Channel × Light) : String × Channel := (pick.2.id, pick.1)

/-- The pairing that the loops compute. -/
abbrev Pairs (sqrt : ℚ → ℚ) (channels free : List Channel) (lights : List Light) (picks : List (Channel × Light)) : Prop :=
  Pairing (fun (channel : Channel) (light : Light) => distance sqrt channel.position light.position) channels free lights
    picks

/-- The inner loop takes pairs until there are no channels or no lights left. -/
theorem assignRound_spec (channels : List Channel) (s : Copies) :
    ∃ s' picks, assignRound sqrt s = some s' ∧ (s'.channelsCopy = [] ∨ s'.lightsCopy = []) ∧
      s'.map = (picks.map entry).foldl mapInsert s.map ∧ ∀ rest, Pairs sqrt channels s'.channelsCopy s'.lightsCopy rest →
        Pairs sqrt channels s.channelsCopy s.lightsCopy (picks ++ rest) := by
  induction s using assignRound.induct sqrt with
  | case1 s hend => exact ⟨s, [], assignRound_of_empty hend, hend, rfl, fun rest h => h⟩
  | case2 s hgo hnone =>
    obtain ⟨hchannels, hlights⟩ := not_or.mp hgo
    obtain ⟨before, after, before', after', channel, light, -, -, -, hone⟩ := assignOne_spec sqrt hchannels hlights
    rw [hone] at hnone
    cases hnone
  | case3 s hgo s₁ hone ih =>
    obtain ⟨hchannels, hlights⟩ := not_or.mp hgo
    obtain ⟨before, after, before', after', channel, light, hsplit, hsplit', hclosest, hone'⟩ :=
      assignOne_spec sqrt hchannels hlights
    obtain rfl := Option.some.inj (hone.symm.trans hone')
    obtain ⟨s', picks, hround, hend, hmap, hpairs⟩ := ih
    refine ⟨s', (channel, light) :: picks, by rw [assignRound_of_some hgo hone, hround], hend, ?_, fun rest hrest => ?_⟩
    · rw [hmap, List.map_cons, List.foldl_cons]
      rfl
    · rw [hsplit, hsplit'] at hclosest ⊢
      exact .pick hclosest (hpairs rest hrest)

/-- The outer loop takes a pair for every light. -/
theorem assignAll_spec (channels : List Channel) (hchannels : channels ≠ []) (s : Copies) :
    ∃ s' picks, assignAll sqrt channels hchannels s = some s' ∧ s'.map = (picks.map entry).foldl mapInsert s.map ∧
      Pairs sqrt channels [] s.lightsCopy picks := by
  induction s using assignAll.induct sqrt channels hchannels with
  | case1 s hend =>
    refine ⟨s, [], by rw [assignAll, dif_pos hend], rfl, ?_⟩
    rw [hend]
    exact .done
  | case2 s hgo hnone =>
    obtain ⟨s', picks, hround, -⟩ := assignRound_spec sqrt channels { s with channelsCopy := channels }
    rw [hround] at hnone
    cases hnone
  | case3 s hgo s₁ hround ih =>
    obtain ⟨s₂, picks, hround', hend, hmap, hpairs⟩ :=
      assignRound_spec sqrt channels { s with channelsCopy := channels }
    obtain rfl := Option.some.inj (hround.symm.trans hround')
    obtain ⟨s', picks', hall, hmap', hrest⟩ := ih
    refine ⟨s', picks ++ picks', ?_, ?_, .refill hgo (hpairs picks' ?_)⟩
    · rw [assignAll, dif_neg hgo]
      split
      · next hnone => rw [hround] at hnone; cases hnone
      · next s₂ hsome => rw [← Option.some.inj (hround.symm.trans hsome), hall]
    · rw [hmap', hmap, List.map_append, List.foldl_append]
    · rcases hend with hend | hend
      · rwa [hend]
      · rw [hend] at hrest ⊢
        rw [hrest.eq_nil]
        exact .done

/-! ### The assignment -/

section

variable {sqrt} {e : MultiChannelEffect} {picks : List (Channel × Light)}

theorem perm_of_pairs (h : Pairs sqrt e.channels e.channels e.lights picks) :
    ((picks.map entry).map Prod.fst).Perm (e.lights.map Light.id) := by
  have hids : (picks.map entry).map Prod.fst = (picks.map Prod.snd).map Light.id := by simp [entry]
  rw [hids]
  exact h.perm.map Light.id

/-- A light has the channel of its pair. -/
theorem lookup_of_pairs (h : Pairs sqrt e.channels e.channels e.lights picks) (hids : (e.lights.map Light.id).Nodup)
    (hmap : e.lightIdChannelMap = picks.map entry) {pick : Channel × Light} (hpick : pick ∈ picks) :
    e.lightIdChannelMap.lookup pick.2.id = some pick.1 := by
  rw [hmap]
  exact lookup_of_mem ((perm_of_pairs h).nodup_iff.mpr hids) (List.mem_map_of_mem (f := entry) hpick)

/-- The lights of a channel are those of its pairs. -/
theorem lightsOf_eq (h : Pairs sqrt e.channels e.channels e.lights picks) (hids : (e.lights.map Light.id).Nodup)
    (hmap : e.lightIdChannelMap = picks.map entry) (channel : Channel) :
    e.lightsOf channel = (picks.map Prod.fst).count channel := by
  rw [lightsOf, ← h.perm.countP_eq, List.countP_map, List.count, List.countP_map]
  refine List.countP_congr fun pick hpick => ?_
  simp [lookup_of_pairs h hids hmap hpick]

theorem assigned_of_pairs (h : Pairs sqrt e.channels e.channels e.lights picks) (hids : (e.lights.map Light.id).Nodup)
    (hmap : e.lightIdChannelMap = picks.map entry) : e.Assigned sqrt := by
  have heven : ∃ k, ∀ channel, k * e.channels.count channel ≤ e.lightsOf channel ∧
      e.lightsOf channel ≤ (k + 1) * e.channels.count channel := by
    obtain ⟨k, hk⟩ := h.balanced fun channel => le_rfl
    refine ⟨k, fun channel => ?_⟩
    rw [lightsOf_eq h hids hmap]
    simpa using hk channel
  refine ⟨?_, fun light hlight => ?_, ?_, fun hnodup a ha b hb => ?_, picks, h, hmap⟩
  · rw [hmap]
    exact perm_of_pairs h
  · obtain ⟨pick, hpick, rfl⟩ := List.mem_map.mp (h.perm.mem_iff.mpr hlight)
    refine ⟨pick.1, ⟨h.mem (fun _ ha => ha) pick hpick, lookup_of_pairs h hids hmap hpick⟩, fun channel hchannel => ?_⟩
    exact Option.some.inj (hchannel.2.symm.trans (lookup_of_pairs h hids hmap hpick))
  · obtain ⟨k, hk⟩ := heven
    exact ⟨k, fun channel _ => hk channel⟩
  · obtain ⟨k, hk⟩ := heven
    have hle : e.lightsOf a ≤ k + 1 := by simpa [List.count_eq_one_of_mem hnodup ha] using (hk a).2
    have hle' : k ≤ e.lightsOf b := by simpa [List.count_eq_one_of_mem hnodup hb] using (hk b).1
    omega

variable (sqrt) in
/-- The assignment is defined, and whatever the map was before, it is that of the channels and the lights. -/
theorem assignLightsToChannels_spec (e : MultiChannelEffect) :
    ∃ e', assignLightsToChannels sqrt e = some e' ∧ e'.channels = e.channels ∧ e'.lights = e.lights ∧
      ((e.lights.map Light.id).Nodup → e'.Current sqrt) := by
  by_cases hchannels : e.channels = []
  · have hassign : assignLightsToChannels sqrt e = some { e with lightIdChannelMap := [] } := by
      rw [assignLightsToChannels, dif_pos hchannels]
    exact ⟨_, hassign, rfl, rfl, fun _ => ⟨fun _ => rfl, fun hne => absurd hchannels hne⟩⟩
  · obtain ⟨s', picks, hall, hmap, hpairs⟩ := assignAll_spec sqrt e.channels hchannels ⟨[], e.lights, []⟩
    have hassign : assignLightsToChannels sqrt e = some { e with lightIdChannelMap := s'.map } := by
      rw [assignLightsToChannels, dif_neg hchannels, hall]
      rfl
    refine ⟨_, hassign, rfl, rfl, fun hids => ⟨fun hempty => absurd hempty hchannels, fun _ => ?_⟩⟩
    refine assigned_of_pairs (e := { e with lightIdChannelMap := s'.map }) hpairs.of_refill hids ?_
    have hkeys : (([] ++ picks.map entry).map Prod.fst).Nodup := by
      rw [List.nil_append]
      exact (perm_of_pairs hpairs.of_refill).nodup_iff.mpr hids
    exact hmap.trans (foldl_mapInsert hkeys)

end

/-! ### Runs -/

/-- One call makes the assignment current. -/
theorem run_spec (op : Op) (e : MultiChannelEffect) :
    ∃ e', op.run sqrt e = some e' ∧ (op.isCall = true → (e'.lights.map Light.id).Nodup → e'.Current sqrt) := by
  have hassign : ∀ e : MultiChannelEffect, ∃ e', assignLightsToChannels sqrt e = some e' ∧
      (op.isCall = true → (e'.lights.map Light.id).Nodup → e'.Current sqrt) := fun e => by
    obtain ⟨e', hassign, -, hlights, hcurrent⟩ := assignLightsToChannels_spec sqrt e
    exact ⟨e', hassign, fun _ hids => hcurrent (hlights ▸ hids)⟩
  cases op with
  | setChannels channels => exact hassign _
  | addChannel channel => exact hassign _
  | enable => exact hassign _
  | updateGroup lights => exact hassign _
  | clear => exact ⟨_, rfl, fun _ _ => ⟨fun _ => rfl, fun hne => absurd rfl hne⟩⟩
  | outside channels lights => exact ⟨_, rfl, fun hcall => by simp [Op.isCall] at hcall⟩

theorem exists_run (ops : List Op) (e : MultiChannelEffect) : ∃ e', run sqrt ops e = some e' := by
  induction ops generalizing e with
  | nil => exact ⟨e, rfl⟩
  | cons op ops ih =>
    obtain ⟨e₁, hone, -⟩ := run_spec sqrt op e
    obtain ⟨e', hrun⟩ := ih e₁
    exact ⟨e', by rw [run, List.foldlM_cons, hone]; exact hrun⟩

/-- **After every call the channels are assigned evenly to the lights, the closest first.** The loops end, and the result
does not depend on what came before. -/
theorem assignLightsToChannels_current (ops : List Op) (op : Op) (e : MultiChannelEffect) :
    ∃ e', run sqrt (ops ++ [op]) e = some e' ∧
      (op.isCall = true → (e'.lights.map Light.id).Nodup → e'.Current sqrt) := by
  obtain ⟨e₁, hrun⟩ := exists_run sqrt ops e
  obtain ⟨e', hone, hcurrent⟩ := run_spec sqrt op e₁
  refine ⟨e', ?_, hcurrent⟩
  rw [run, List.foldlM_append]
  change run sqrt ops e >>= _ = _
  rw [hrun]
  change Op.run sqrt e₁ op >>= some = _
  rw [hone]
  rfl

def exampleChannels : List Channel := [⟨1, { x := 0 }⟩, ⟨2, { x := 1 }⟩]

def exampleLights : List Light := [{ id := "1" }, { id := "2", position := { x := 1 } }, { id := "3" }]

/-- Two channels and three lights on a line, where the square roots of 0 and 1 are what they are. -/
theorem assignLightsToChannels_current_example :
    ∃ e', run (fun q => q) ([.setChannels exampleChannels] ++ [.updateGroup exampleLights]) {} = some e' ∧
      e'.Current fun q => q := by
  obtain ⟨e', hrun, hcurrent⟩ :=
    assignLightsToChannels_current (fun q => q) [.setChannels exampleChannels] (.updateGroup exampleLights) {}
  obtain ⟨e₁, hset, -⟩ := assignLightsToChannels_spec (fun q => q) { channels := exampleChannels }
  obtain ⟨e₂, hupdate, -, hlights, -⟩ := assignLightsToChannels_spec (fun q => q) { e₁ with lights := exampleLights }
  have hrun' : run (fun q => q) ([.setChannels exampleChannels] ++ [.updateGroup exampleLights]) {} = some e₂ := by
    rw [run, List.singleton_append, List.foldlM_cons, Op.run, hset]
    change Op.run (fun q => q) e₁ _ >>= some = _
    rw [Op.run, hupdate]
    rfl
  have hids : (exampleLights.map Light.id).Nodup := by decide
  obtain rfl : e' = e₂ := Option.some.inj (hrun.symm.trans hrun')
  exact ⟨e', hrun, hcurrent rfl (hlights ▸ hids)⟩

end HueStream.Effects.MultiChannelEffect

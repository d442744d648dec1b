import FleetControl.Proofs.Listening

/-!
To await a signal comes to the same as to look at it: the race is won once one of its sources is cancelled,
whatever else becomes of them.
-/
namespace FleetControl.Signals

variable {s t : Signals} {signal : Signal} {race : Race} {lanes : List Lane}

namespace Session

variable {a b : Session} {o : Origin} {step : Step} {steps before after : List Step}
  {chunks : List (List Step)} {i number position : Nat}

def Sound (s : Signals) (signal : Signal) : Race → Prop
  | .won => signal.fired s
  | .running lanes => lanes.map (·.handle) = signal.sources ∧
      ∀ l ∈ lanes, l.out → s.isDropped l.handle ∧ ¬ s.isCancelled l.handle

theorem sound_race (s : Signals) (signal : Signal) : Sound s signal signal.race := by
  simp [Signal.race, Sound, Function.comp_def]

theorem fired_of_later (h : s.Later t) (hfired : signal.fired s) : signal.fired t := by
  simp only [Signal.fired, List.any_eq_true] at hfired ⊢
  obtain ⟨k, hmem, hk⟩ := hfired
  exact ⟨k, hmem, h.cancelled k hk⟩

theorem Sound.later (h : Sound s signal race) (hlater : s.Later t) : Sound t signal race := by
  cases race with
  | won => exact fired_of_later hlater h
  | running lanes =>
    refine ⟨h.1, ?_⟩
    intro l hl hout
    obtain ⟨hdropped, hlive⟩ := h.2 l hl hout
    exact ⟨hlater.dropped _ hdropped, fun hk => hlive (hlater.settled _ hdropped hk)⟩

theorem Sound.fires_iff (h : Sound s signal (.running lanes)) :
    lanes.any (·.fires s) ↔ signal.fired s := by
  simp only [Signal.fired, ← h.1, List.any_map, List.any_eq_true, Lane.fires, Function.comp_apply,
    Bool.and_eq_true, Bool.not_eq_true']
  constructor
  · rintro ⟨l, hl, -, hk⟩
    exact ⟨l, hl, hk⟩
  · rintro ⟨l, hl, hk⟩
    have hin : l.out = false := Bool.not_eq_true _ ▸ fun hout => (h.2 l hl hout).2 hk
    exact ⟨l, hl, hin, hk⟩

theorem Sound.poll (h : Sound s signal race) : Sound s signal (race.poll s) := by
  cases race with
  | won => exact h
  | running lanes =>
    simp only [Race.poll]
    split
    next hfires => exact h.fires_iff.mp hfires
    next hfires =>
      rw [h.fires_iff, Signal.fired, ← h.1] at hfires
      -- What drops out now has not been cancelled, or else the race would have been won.
      have hlive : ∀ l ∈ lanes, ¬ s.isCancelled l.handle := by simpa using hfires
      refine ⟨by simpa [Lane.poll, Function.comp_def] using h.1, ?_⟩
      intro l' hl' hout
      obtain ⟨l, hl, rfl⟩ := List.mem_map.mp hl'
      refine ⟨?_, hlive l hl⟩
      rcases (Bool.or_eq_true _ _).mp hout with hout | hdropped
      · exact (h.2 l hl hout).1
      · exact hdropped

theorem Sound.poll_eq_won_iff (h : Sound s signal race) : race.poll s = .won ↔ signal.fired s := by
  cases race with
  | won => exact ⟨fun _ => h, fun _ => rfl⟩
  | running lanes =>
    rw [← h.fires_iff, Race.poll]
    split
    next hfires => simp [hfires]
    next hfires => simp [hfires]

theorem follow?_of_run? (hsound : Sound a.signals signal race)
    (hwon : race = .won ↔ signal.fired a.signals) (hrun : a.run? chunks.flatten = some b) :
    ∃ race', a.follow? race chunks = some (b, race') ∧ (race' = .won ↔ signal.fired b.signals) := by
  induction chunks generalizing a race with
  | nil =>
    obtain rfl := Option.some.inj hrun
    exact ⟨race, rfl, hwon⟩
  | cons steps chunks ih =>
    rw [List.flatten_cons, run?_append] at hrun
    obtain ⟨c, hc, hrest⟩ := Option.bind_eq_some_iff.mp hrun
    have hlater := hsound.later (later_run hc)
    obtain ⟨race', hfollow, hwon'⟩ := ih hlater.poll hlater.poll_eq_won_iff hrest
    exact ⟨race', by simp [follow?, hc, hfollow], hwon'⟩

theorem follow?_await (signal : Signal) (hrun : a.run? chunks.flatten = some b) :
    ∃ race, a.follow? (a.await signal) chunks = some (b, race) ∧ (race = .won ↔ signal.fired b.signals) := by
  have hsound := sound_race a.signals signal
  exact follow?_of_run? hsound.poll hsound.poll_eq_won_iff hrun

theorem fired_congr (h : ∀ k, t.isCancelled k = s.isCancelled k) : signal.fired t = signal.fired s := by
  rw [Signal.fired, funext h]
  rfl

theorem getElem?_taken_of_performs (h : a.Performs step b) (hi : a.taken[i]? = some signal) :
    b.taken[i]? = some signal := by
  have hlt : i < a.taken.length := (List.getElem?_eq_some_iff.mp hi).1
  cases h with
  | takes _ => rwa [List.getElem?_append_left hlt]
  | combines _ _ => rwa [List.getElem?_append_left hlt]
  | _ => exact hi

theorem getElem?_taken_of_run (h : a.run? steps = some b) (hi : a.taken[i]? = some signal) :
    b.taken[i]? = some signal := by
  induction steps generalizing a with
  | nil =>
    obtain rfl := Option.some.inj h
    exact hi
  | cons step steps ih =>
    obtain ⟨c, hc, hrest⟩ := Option.bind_eq_some_iff.mp h
    exact ih hrest (getElem?_taken_of_performs (performs_of_perform? hc) hi)

theorem fired_drop (h : a.perform? (.drop number) = some b) (signal : Signal) :
    signal.fired b.signals = signal.fired a.signals := by
  cases performs_of_perform? h with
  | drops _ => exact fired_congr fun _ => isCancelled_drop

theorem Traced.fired_cancel_iff (h : Traced steps a) (hb : a.perform? (.cancel o) = some b)
    (hi : a.taken[i]? = some signal) :
    signal.fired b.signals ↔
      signal.fired a.signals ∨ ListensTo (makingsOf steps) i o ∧ ¬ Dropped steps o := by
  have hperforms := performs_of_perform? hb
  rw [(h.performs hperforms).fired_iff (getElem?_taken_of_performs hperforms hi), h.fired_iff hi]
  have hmakings : makingsOf (steps ++ [.cancel o]) = makingsOf steps := by simp [makingsOf]
  simp only [hmakings, cancelled_concat, Step.cancel.injEq, and_or_left, exists_or]
  constructor
  · rintro (hold | ⟨_, hlistens, rfl, hlive⟩)
    · exact .inl hold
    · exact .inr ⟨hlistens, hlive⟩
  · rintro (hold | ⟨hlistens, hlive⟩)
    · exact .inl hold
    · exact .inr ⟨o, hlistens, rfl, hlive⟩

theorem Traced.fired_take_iff (h : Traced steps a) (hb : a.perform? (.take (.of o)) = some b) :
    ∃ signal, b.taken = a.taken ++ [signal] ∧ (signal.fired b.signals ↔ Cancelled steps o) ∧
      ∀ x : Signal, x.fired b.signals = x.fired a.signals := by
  cases performs_of_perform? hb with
  | @takes _ signals k huse =>
    refine ⟨.ofHandle k, rfl, ?_, ?_⟩
    · have hk := (h.placed.uses huse).cancelled o k (place?_uses huse)
      simpa [Signal.fired, Signal.ofHandle] using hk
    · intro x
      apply fired_congr
      cases huse with
      | there _ => exact fun _ => rfl
      | fresh _ => exact isCancelled_newHandle

theorem not_dropped_slot (steps : List Step) (position : Nat) : ¬ Dropped steps (.slot position) := by
  simp [Dropped]

theorem cancelled_slot_iff : Cancelled steps (.slot position) ↔ .cancel (.slot position) ∈ steps := by
  simp only [Cancelled, not_dropped_slot, not_false_eq_true, and_true, List.mem_iff_append]

theorem fired_either (s : Signals) (x y : Signal) :
    (x.either y).fired s = (x.fired s || y.fired s) := List.any_append

/-- A signal has fired just if one of the origins that it goes back to has been cancelled while it was there,
which is what one that awaits it gets to know. -/
theorem fires_iff_origin_cancelled (hs : empty.run? before = some a) (ht : a.run? after = some b) :
    (∀ i signal, a.taken[i]? = some signal →
      (signal.fired a.signals ↔ ∃ o, ListensTo (makingsOf before) i o ∧ Cancelled before o) ∧
      b.taken[i]? = some signal ∧ (signal.fired a.signals → signal.fired b.signals) ∧
      ∀ chunks, chunks.flatten = after → ∃ race,
        a.follow? (a.await signal) chunks = some (b, race) ∧ (race = .won ↔ signal.fired b.signals)) ∧
    (∀ number c, a.perform? (.drop number) = some c →
      (∀ signal : Signal, signal.fired c.signals = signal.fired a.signals) ∧
      ∀ o d, c.perform? (.cancel o) = some d → o ≠ .handle number → ¬ Dropped before o →
        ∀ i signal, a.taken[i]? = some signal → ListensTo (makingsOf before) i o →
          signal.fired d.signals ∧
            a.follow? (a.await signal) [[.drop number], [.cancel o]] = some (d, .won)) ∧
    (∀ o c, a.perform? (.take (.of o)) = some c → ∃ signal, c.taken = a.taken ++ [signal] ∧
      (signal.fired c.signals ↔ Cancelled before o) ∧
      ∀ x : Signal, x.fired c.signals = x.fired a.signals) ∧
    (∀ i j x y, a.taken[i]? = some x → a.taken[j]? = some y →
      a.perform? (.take (.either i j)) = some { a with taken := a.taken ++ [x.either y] }) ∧
    (∀ x y z : Signal, (x.either y).fired a.signals = (x.fired a.signals || y.fired a.signals) ∧
      ((x.either y).either z).fired a.signals = (x.either (y.either z)).fired a.signals ∧
      (x.either y).fired a.signals = (y.either x).fired a.signals ∧
      (x.either x).fired a.signals = x.fired a.signals) ∧
    ∀ position, ∃ c, a.perform? (.cancel (.slot position)) = some c ∧ c.taken = a.taken ∧
      (∀ i signal, a.taken[i]? = some signal →
        (signal.fired c.signals ↔
          signal.fired a.signals ∨ ListensTo (makingsOf before) i (.slot position))) ∧
      ∀ p d, c.perform? (.take (.of (.slot p))) = some d → ∃ signal, d.taken = c.taken ++ [signal] ∧
        (signal.fired d.signals ↔ p = position ∨ .cancel (.slot p) ∈ before) := by
  have htraced := traced_of_run hs
  refine ⟨?_, ?_, fun o c hc => htraced.fired_take_iff hc, ?_, ?_, ?_⟩
  · intro i signal hi
    refine ⟨htraced.fired_iff hi, getElem?_taken_of_run ht hi, fired_of_later (later_run ht), ?_⟩
    rintro chunks rfl
    exact follow?_await signal ht
  · intro number c hc
    refine ⟨fired_drop hc, ?_⟩
    intro o d hd hne hlive i signal hi hlistens
    have hdrops := performs_of_perform? hc
    have hlater : ¬ Dropped (before ++ [.drop number]) o := by
      simp [dropped_concat, hlive, hne]
    have hmakings : makingsOf (before ++ [.drop number]) = makingsOf before := by simp [makingsOf]
    have hfired : signal.fired d.signals := by
      rw [(htraced.performs hdrops).fired_cancel_iff hd (getElem?_taken_of_performs hdrops hi), hmakings]
      exact .inr ⟨hlistens, hlater⟩
    have hrun : a.run? [[.drop number], [.cancel o]].flatten = some d := by simp [run?, hc, hd]
    obtain ⟨race, hfollow, hwon⟩ := follow?_await signal hrun
    rw [hwon.mpr hfired] at hfollow
    exact ⟨hfired, hfollow⟩
  · intro i j x y hx hy
    simp [perform?, make?, hx, hy]
  · intro x y z
    simp only [fired_either, Bool.or_assoc, Bool.or_self, true_and, and_true]
    exact Bool.or_comm _ _
  · intro position
    obtain ⟨c, hc⟩ : ∃ c, a.perform? (.cancel (.slot position)) = some c := ⟨_, rfl⟩
    have hcancels := performs_of_perform? hc
    refine ⟨c, hc, ?_, ?_, ?_⟩
    · cases hcancels with
      | cancels _ => rfl
    · intro i signal hi
      rw [htraced.fired_cancel_iff hc hi, and_iff_left (not_dropped_slot _ _)]
    · intro p d hd
      obtain ⟨signal, htaken, hfired, -⟩ := (htraced.performs hcancels).fired_take_iff hd
      refine ⟨signal, htaken, ?_⟩
      rw [hfired, cancelled_slot_iff]
      simp [or_comm]

theorem either_fires_without_dropped :
    ∃ a b, empty.run? [.handle, .handle, .take (.of (.handle 0)), .take (.of (.handle 1)),
        .take (.either 0 1)] = some a ∧
      a.run? [.drop 0, .cancel (.handle 1)] = some b ∧
      a.follow? (a.await ⟨[0, 1]⟩) [[.drop 0], [.cancel (.handle 1)]] = some (b, .won) := by
  have hs : empty.run? [.handle, .handle, .take (.of (.handle 0)), .take (.of (.handle 1)),
      .take (.either 0 1)] = some ⟨⟨[⟨false, false⟩, ⟨false, false⟩], []⟩, [0, 1],
        [⟨[0]⟩, ⟨[1]⟩, ⟨[0, 1]⟩]⟩ := rfl
  have ht : run? ⟨⟨[⟨false, false⟩, ⟨false, false⟩], []⟩, [0, 1], [⟨[0]⟩, ⟨[1]⟩, ⟨[0, 1]⟩]⟩
      [.drop 0, .cancel (.handle 1)] = some ⟨⟨[⟨false, true⟩, ⟨true, false⟩], []⟩, [0, 1],
        [⟨[0]⟩, ⟨[1]⟩, ⟨[0, 1]⟩]⟩ := rfl
  obtain ⟨-, -, -, hawait⟩ := (fires_iff_origin_cancelled hs ht).1 2 ⟨[0, 1]⟩ rfl
  obtain ⟨race, hfollow, hwon⟩ := hawait [[.drop 0], [.cancel (.handle 1)]] rfl
  rw [hwon.mpr rfl] at hfollow
  exact ⟨_, _, hs, ht, hfollow⟩

end Session
end FleetControl.Signals

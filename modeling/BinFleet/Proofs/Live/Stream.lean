import BinFleet.Proofs.Live.Joining

namespace BinFleet.Live

variable {cfg : Fleet.Settings}

theorem telling_run (s : Scene) {f : Frame} {rest : List Nat} (hp : s.phase = .telling f rest) (j : Journal)
    (sent : Nat) :
    Run cfg s { s with hub := (rest.foldl (Hub.offer f) (s.hub, j, sent)).1, phase := .telling f [] } := by
  induction rest generalizing s j sent with
  | nil => rw [List.foldl_nil, ← hp]
  | cons n rest ih =>
    have hoffer := Hub.offer_hub (h := s.hub) f j sent n
    rw [List.foldl_cons]
    generalize Hub.offer f (s.hub, j, sent) n = offered at hoffer ⊢
    obtain ⟨hub, j', sent'⟩ := offered
    have hrest := ih { s with hub, phase := .telling f rest } rfl j' sent'
    cases hs : (s.hub.apply n (·.send f)).2 with
    | none =>
      simp only [hs, Option.isSome_none, Bool.false_eq_true, if_false] at hoffer
      subst hoffer
      exact .head (.tell hp hs) hrest
    | some why =>
      simp only [hs, Option.isSome_some, if_true] at hoffer
      subst hoffer
      exact .head (.fail hp hs) (.head (.drop j rfl) hrest)

/-- A broadcast is a run that ends the operation. -/
theorem broadcast_run (s : Scene) {f : Frame} (hp : s.phase = .changed f) (j : Journal) :
    Run cfg s { s with hub := (s.hub.broadcast f j).1, phase := .idle } := by
  refine .head (.begin hp (.refl _)) ?_
  exact (telling_run { s with phase := .telling f s.hub.members } rfl j 0).tail (.finish rfl)

namespace Stream

variable {σ : Type} (t : Stream σ)

/-- The stream takes a notice by a broadcast of its frame. -/
theorem hear_listener (context : LogContext) (n : Fleet.Notice) (s : Fleet.State σ) :
    Fleet.Service.hear context n t.listener s =
      { s with
        world := t.setHub ((t.hub s.world).broadcast (.ofNotice (t.now s.world) n) s.journal).1 s.world
        journal := ((t.hub s.world).broadcast (.ofNotice (t.now s.world) n) s.journal).2.1 } := by
  cases n <;> rfl

/-- A client that joins undisturbed is live when it has joined. -/
theorem join_run (s : Scene) (hv : s.hub.Valid) (haway : s.client = .away) (state : Fleet.State σ)
    (ht : state.tracker = s.tracker) (hhub : t.hub state.world = s.hub)
    (hset : ∀ hub world, t.hub (t.setHub hub world) = hub)
    (he : Encodable (Frame.snapshot s.tracker.markers (t.now state.world))) (context : LogContext) (id : Uuid) :
    Run cfg s { s with
      hub := t.hub (t.join context id state).world
      client := .live s.hub.connections.length s.tracker.markers (t.now state.world) } := by
  have hrun : Run cfg s s := .refl
  have hregistered := (hrun.tail (.connect id haway)).tail (.register state.journal rfl)
  have hbriefed := hregistered.tail (.brief (t.now state.world) rfl he)
  have hadded := Hub.getElem?_add_connect state.journal hv (Connection.hold { id })
  have hfirst := Hub.apply_of_getElem? (·.sendFirst (.snapshot s.tracker.markers (t.now state.world))) hadded
  obtain ⟨c, hc, -⟩ := (Connection.Carries.hold id).sendFirst rfl rfl he
  rw [hc] at hfirst
  have hsent := congrArg Prod.snd hfirst
  change _ = none at hsent
  simp only [join, hhub, ht, hsent, hset]
  exact hbriefed.tail (.sendFirst rfl hsent)

theorem listener_keepsGauge : t.listener.KeepsGauge where
  updated _ _ _ := Hub.broadcast_metrics _ (by simp) _
  removed _ _ _ := Hub.broadcast_metrics _ (by simp) _

end Stream

end BinFleet.Live

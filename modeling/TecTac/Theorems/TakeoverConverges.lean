import TecTac.EndpointTransport

/-!
# The newest connection stays

A connection that joins the group before another one has announced itself is closed by that announcement, and closes the other one with its own: both
are lost. Where no connection starts while another one is still connecting, the newest one stays open and has the presence. A closed connection that has
read its own presence deletes whatever is there by then; where no connection marks its presence in between, it deletes its own.
-/

namespace TecTac

namespace EndpointTransport

open Machine

/-! ## What is said of a state and of a step -/

namespace Hub

/-- A connection whose socket is open: it is connecting, or connected and not closed. -/
def IsOpen (s : Hub) (c : Nat) : Prop := c < s.started ∧ (s.connection c).stage ∈ [.joined, .marked, .opened]

/-- Every connect and disconnect that began has ended, and every message was handled. -/
def Settled (s : Hub) : Prop :=
  ∀ c < s.started, (s.connection c).stage = .opened ∧ (s.connection c).inbox = [] ∨ (s.connection c).stage = .gone

/-- One connection is open, the newest, and it has the presence; or none has started. -/
def Converged (s : Hub) : Prop :=
  s.started = 0 ∨ ∃ c, c + 1 = s.started ∧ s.IsOpen c ∧ (∀ d, s.IsOpen d → d = c) ∧ s.presence = some c

end Hub

/-- The calls of `clear_presence` and of `refresh_presence` leave the presence of an open connection. -/
def KeepsOpen (s : Hub) (e : Step) : Prop :=
  ∀ c d, e ∈ [.read c, .delete c, .refresh c, .add c] → s.IsOpen d → s.presence = some d → (s.step e).presence = some d

/-- No connection starts while another one is connecting, and none marks its presence while another one is about to delete its own. -/
def StepOk (s : Hub) : Step → Prop
  | .join => ∀ c < s.started, (s.connection c).stage ∉ [Stage.joined, .marked]
  | .mark c => ∀ d < s.started, d ≠ c → (s.connection d).stage ≠ .clearing
  | _ => True

namespace TakeoverAux

variable {s : Hub}

theorem connection_set (s : Hub) (c d : Nat) (f : Connection → Connection) :
    (s.set c f).connection d = if d = c then f (s.connection c) else s.connection d := by
  simp only [Hub.set, Function.update_apply]

@[simp] theorem started_set (s : Hub) (c : Nat) (f : Connection → Connection) : (s.set c f).started = s.started := rfl

@[simp] theorem presence_set (s : Hub) (c : Nat) (f : Connection → Connection) : (s.set c f).presence = s.presence := rfl

/-- A step of a connection happens in one of its stages, or does nothing. -/
theorem when_keeps {P : Hub → Prop} {c : Nat} {stages : List Stage} {next : Hub} (hs : P s)
    (hnext : c < s.started → (s.connection c).stage ∈ stages → P next) : P (s.when c stages next) := by
  unfold Hub.when
  split
  · rename_i h
    exact hnext h.1 h.2
  · exact hs

/-! ## A connection that is about to delete the presence has it -/

def Owned (s : Hub) : Prop := ∀ c < s.started, (s.connection c).stage = .clearing → s.presence = some c

theorem owned_empty : Owned Hub.empty := fun _ hc => absurd hc (Nat.not_lt_zero _)

/-- A step of one connection that neither makes it clear nor changes the presence. -/
theorem Owned.set (h : Owned s) {c : Nat} {f : Connection → Connection}
    (hf : (f (s.connection c)).stage = .clearing → (s.connection c).stage = .clearing ∨ s.presence = some c) : Owned (s.set c f) := by
  intro d hd hstage
  rw [connection_set] at hstage
  split at hstage
  · rename_i hdc
    subst hdc
    exact (hf hstage).elim (h d hd) id
  · exact h d hd hstage

theorem Owned.step (h : Owned s) {e : Step} (hok : StepOk s e) : Owned (s.step e) := by
  cases e with
  | join =>
    intro d hd hstage
    simp only [Hub.step, Hub.join, Function.update_apply] at hd hstage ⊢
    split at hstage
    · cases hstage
    · exact h d (by omega) hstage
  | mark c =>
    refine when_keeps h fun _ _ d hd hstage => ?_
    by_cases hdc : d = c
    · rw [hdc]
    · simp only [connection_set, hdc, if_false] at hstage
      exact absurd hstage (hok d hd hdc)
  | announce c =>
    refine when_keeps h fun _ _ d hd hstage => ?_
    simp only [connection_set] at hstage
    split at hstage
    · cases hstage
    · split at hstage <;> exact h d hd hstage
  | deliver c k =>
    refine when_keeps h fun _ _ => ?_
    split
    · exact h
    · refine h.set fun hclear => ?_
      simp only at hclear
      split at hclear
      · exact .inl hclear
      · cases hclear
  | close c => exact when_keeps h fun _ _ => h.set nofun
  | leave c => exact when_keeps h fun _ _ => h.set nofun
  | read c =>
    refine when_keeps h fun _ _ => h.set fun hclear => ?_
    simp only at hclear
    split at hclear
    · rename_i hown
      exact .inr (by simpa using (Bool.and_eq_true_iff.mp hown).2)
    · cases hclear
  | delete c =>
    refine when_keeps h fun hc hstage d hd hclear => ?_
    have hown := h c hc (by simpa using hstage)
    simp only [connection_set] at hclear
    split at hclear
    · cases hclear
    · rename_i hdc
      have := h d hd hclear
      rw [hown] at this
      exact absurd (Option.some.inj this).symm hdc
  | rejoin c => exact when_keeps h fun _ _ => h.set .inl
  | refresh c =>
    refine when_keeps h fun _ _ => ?_
    split
    · exact h
    · exact h.set .inl
  | add c =>
    simp only [Hub.step, Hub.add]
    split
    · intro d hd hstage
      have hset : Owned (s.set c fun x => { x with adding := false }) := h.set .inl
      have hown := hset d hd hstage
      rw [presence_set] at hown
      simp [hown]
    · exact h

theorem keepsOpen (h : Owned s) (e : Step) : KeepsOpen s e := by
  intro c d he hopen hpresence
  simp only [List.mem_cons, List.not_mem_nil, or_false] at he
  rcases he with rfl | rfl | rfl | rfl
  · exact when_keeps (P := fun s => s.presence = some d) hpresence fun _ _ => hpresence
  · refine when_keeps (P := fun s => s.presence = some d) hpresence fun hc hstage => ?_
    -- the presence is that of the connection that deletes it, which is not open
    have hclear : (s.connection c).stage = .clearing := by simpa using hstage
    obtain rfl : c = d := Option.some.inj ((h c hc hclear).symm.trans hpresence)
    rw [Hub.IsOpen, hclear] at hopen
    exact absurd hopen.2 (by decide)
  · refine when_keeps (P := fun s => s.presence = some d) hpresence fun _ _ => ?_
    split <;> exact hpresence
  · simp only [Hub.step, Hub.add]
    split
    · simp [hpresence]
    · exact hpresence

/-! ## The newest connection is never told to close -/

/-- The invariant of the runs in which no socket is closed from outside. -/
structure Ordered (s : Hub) : Prop where
  connecting : ∀ c < s.started, (s.connection c).stage ∈ [Stage.joined, .marked] → c + 1 = s.started
  member : ∀ c < s.started, (s.connection c).stage ∈ [Stage.joined, .marked, .opened, .closed] → (s.connection c).member = true
  inbox : ∀ c < s.started, ∀ m ∈ (s.connection c).inbox, c ≤ m ∧ m < s.started
  told : ∀ c d, c < d → d < s.started → (s.connection c).stage = .opened → (s.connection d).stage ∉ [Stage.joined, .marked] →
    d ∈ (s.connection c).inbox
  ended : ∀ c < s.started, (s.connection c).stage ∉ [Stage.joined, .marked, .opened] → (s.connection c).superseded = true
  older : ∀ c < s.started, (s.connection c).superseded = true → c + 1 < s.started
  adding : ∀ c, (s.connection c).adding = false
  fresh : s.started = 0 → s.presence = none
  clearing : ∀ c < s.started, (s.connection c).stage ≠ .clearing
  presence : ∀ c, c + 1 = s.started → if (s.connection c).stage = .joined then s.presence = if c = 0 then none else some (c - 1)
    else s.presence = some c

theorem ordered_empty : Ordered Hub.empty := by
  constructor <;> simp [Hub.empty]

/-- What the invariant says of one connection, where `n` have started. -/
structure Single (n c : Nat) (x : Connection) : Prop where
  connecting : x.stage ∈ [Stage.joined, .marked] → c + 1 = n
  member : x.stage ∈ [Stage.joined, .marked, .opened, .closed] → x.member = true
  inbox : ∀ m ∈ x.inbox, c ≤ m ∧ m < n
  ended : x.stage ∉ [Stage.joined, .marked, .opened] → x.superseded = true
  older : x.superseded = true → c + 1 < n
  clearing : x.stage ≠ .clearing

theorem Ordered.single (h : Ordered s) {c : Nat} (hc : c < s.started) : Single s.started c (s.connection c) :=
  ⟨h.connecting c hc, h.member c hc, h.inbox c hc, h.ended c hc, h.older c hc, h.clearing c hc⟩

theorem ordered_of_single (hsingle : ∀ c < s.started, Single s.started c (s.connection c))
    (told : ∀ c d, c < d → d < s.started → (s.connection c).stage = .opened → (s.connection d).stage ∉ [Stage.joined, .marked] →
      d ∈ (s.connection c).inbox)
    (adding : ∀ c, (s.connection c).adding = false) (fresh : s.started = 0 → s.presence = none)
    (presence : ∀ c, c + 1 = s.started → if (s.connection c).stage = .joined then s.presence = if c = 0 then none else some (c - 1)
      else s.presence = some c) : Ordered s :=
  ⟨fun c hc => (hsingle c hc).connecting, fun c hc => (hsingle c hc).member, fun c hc => (hsingle c hc).inbox, told, fun c hc => (hsingle c hc).ended,
    fun c hc => (hsingle c hc).older, adding, fresh, fun c hc => (hsingle c hc).clearing, presence⟩

theorem Ordered.join (h : Ordered s) (hok : StepOk s .join) : Ordered s.join := by
  have hnew : s.join.connection s.started = ⟨.joined, false, true, [], false⟩ := Function.update_self ..
  have hold : ∀ d, d ≠ s.started → s.join.connection d = s.connection d := fun d hd => Function.update_of_ne hd ..
  have hlt : ∀ d < s.join.started, d ≠ s.started → d < s.started := fun d hd hne => Nat.lt_of_le_of_ne (Nat.le_of_lt_succ hd) hne
  have hsingle : ∀ d < s.join.started, Single s.join.started d (s.join.connection d) := by
    intro d hd
    by_cases hds : d = s.started
    · rw [hds, hnew]
      exact ⟨fun _ => rfl, fun _ => rfl, by simp, by simp, by simp, by simp⟩
    · rw [hold d hds]
      have hone := h.single (hlt d hd hds)
      exact { hone with
        connecting := fun hmem => absurd hmem (hok d (hlt d hd hds))
        inbox := fun m hm => ⟨(hone.inbox m hm).1, Nat.lt_succ_of_lt (hone.inbox m hm).2⟩
        older := fun hover => Nat.lt_succ_of_lt (hone.older hover) }
  refine ordered_of_single hsingle ?_ ?_ (fun hzero => absurd hzero (Nat.succ_ne_zero _)) ?_
  · intro d e hde he hopen hannounced
    by_cases hes : e = s.started
    · rw [hes, hnew] at hannounced
      simp at hannounced
    · have hd : d < s.started := hde.trans (hlt e he hes)
      rw [hold d hd.ne] at hopen ⊢
      rw [hold e hes] at hannounced
      exact h.told d e hde (hlt e he hes) hopen hannounced
  · intro d
    by_cases hds : d = s.started
    · rw [hds, hnew]
    · rw [hold d hds]
      exact h.adding d
  · intro d hd
    obtain rfl : d = s.started := Nat.succ.inj hd
    rw [hnew, if_pos rfl]
    split
    · rename_i hzero
      exact h.fresh hzero
    · rename_i hpos
      have hlast := h.presence (s.started - 1) (by omega)
      rwa [if_neg fun hjoined => hok (s.started - 1) (by omega) (by simp [hjoined])] at hlast

/-- A connection that takes a step leaves the others as they are. -/
theorem Ordered.update (h : Ordered s) {c : Nat} {x : Connection} {p : Option Nat} (hc : c < s.started) (hx : Single s.started c x)
    (hannounced : x.stage ∉ [Stage.joined, .marked] → (s.connection c).stage ∉ [Stage.joined, .marked])
    (htold : x.stage = .opened → (s.connection c).stage = .opened ∧ ∀ d ∈ (s.connection c).inbox, d ≠ c → d ∈ x.inbox) (hadding : x.adding = false)
    (hpresence : ∀ d, d + 1 = s.started →
      if (Function.update s.connection c x d).stage = .joined then p = if d = 0 then none else some (d - 1) else p = some d) :
    Ordered ⟨s.started, Function.update s.connection c x, p⟩ := by
  have hself : (Hub.mk s.started (Function.update s.connection c x) p).connection c = x := Function.update_self ..
  have hother : ∀ d, d ≠ c → (Hub.mk s.started (Function.update s.connection c x) p).connection d = s.connection d :=
    fun d hd => Function.update_of_ne hd ..
  refine ordered_of_single ?_ ?_ ?_ (fun hzero => absurd hc (hzero ▸ Nat.not_lt_zero c)) hpresence
  · intro d hd
    by_cases hdc : d = c
    · rw [hdc, hself]
      exact hx
    · rw [hother d hdc]
      exact h.single hd
  · intro d e hde he hopen hnot
    have hbefore : (s.connection e).stage ∉ [Stage.joined, .marked] := by
      by_cases hec : e = c
      · rw [hec, hself] at hnot
        exact hec ▸ hannounced hnot
      · rwa [hother e hec] at hnot
    by_cases hdc : d = c
    · rw [hdc, hself] at hopen ⊢
      exact (htold hopen).2 e (h.told c e (hdc ▸ hde) he (htold hopen).1 hbefore) (hdc ▸ hde.ne')
    · rw [hother d hdc] at hopen ⊢
      exact h.told d e hde he hopen hbefore
  · intro d
    by_cases hdc : d = c
    · rw [hdc, hself]
      exact hadding
    · rw [hother d hdc]
      exact h.adding d

/-- The presence stays that of the newest connection while no stage leaves or enters `joined`. -/
theorem Ordered.presence_update (h : Ordered s) {c : Nat} {x : Connection} (hx : x.stage = .joined ↔ (s.connection c).stage = .joined) (d : Nat)
    (hd : d + 1 = s.started) :
    if (Function.update s.connection c x d).stage = .joined then s.presence = if d = 0 then none else some (d - 1) else s.presence = some d := by
  have hlast := h.presence d hd
  by_cases hdc : d = c
  · subst hdc
    simpa only [Function.update_self, hx] using hlast
  · rwa [Function.update_of_ne hdc]

theorem Ordered.mark (h : Ordered s) (c : Nat) : Ordered (s.mark c) := by
  refine when_keeps h fun hc hstage => ?_
  have hjoined : (s.connection c).stage = .joined := List.mem_singleton.1 hstage
  have hlast := h.connecting c hc (by simp [hjoined])
  refine h.update hc ?_ (by simp) nofun (h.adding c) ?_
  · exact { h.single hc with
      connecting := fun _ => hlast, member := fun _ => h.member c hc (by simp [hjoined]), ended := by simp, clearing := by simp }
  · intro d hd
    obtain rfl : d = c := by omega
    simp

/-- The announcement reaches every connection that is not yet leaving. -/
theorem Ordered.announce (h : Ordered s) (c : Nat) : Ordered (s.announce c) := by
  refine when_keeps h fun hc hstage => ?_
  have hmarked : (s.connection c).stage = .marked := List.mem_singleton.1 hstage
  have hlast := h.connecting c hc (by simp [hmarked])
  generalize hnext : Hub.set _ _ _ = next
  have hconn : ∀ d, next.connection d = { s.connection d with
      stage := if d = c then .opened else (s.connection d).stage
      inbox := if (s.connection d).member then (s.connection d).inbox ++ [c] else (s.connection d).inbox } := by
    intro d
    rw [← hnext, connection_set]
    by_cases hdc : d = c
    · subst hdc
      cases hm : (s.connection d).member <;> simp [hm]
    · cases hm : (s.connection d).member
      · simp only [hm, hdc, Bool.false_eq_true, if_false]
        rw [← hm]
      · simp [hm, hdc]
  have hstarted : next.started = s.started := by rw [← hnext]; rfl
  have hpresence : next.presence = s.presence := by rw [← hnext]; rfl
  have hinbox : ∀ d < s.started, ∀ m ∈ if (s.connection d).member then (s.connection d).inbox ++ [c] else (s.connection d).inbox,
      d ≤ m ∧ m < s.started := by
    intro d hd m hm
    split at hm
    · rcases List.mem_append.mp hm with hm | hm
      · exact h.inbox d hd m hm
      · rw [List.mem_singleton.mp hm]
        omega
    · exact h.inbox d hd m hm
  apply ordered_of_single <;> simp only [hconn, hstarted, hpresence]
  case hsingle =>
    intro d hd
    by_cases hdc : d = c
    · subst hdc
      rw [if_pos rfl]
      exact ⟨by simp, fun _ => h.member d hd (by simp [hmarked]), hinbox d hd, by simp, h.older d hd, by simp⟩
    · rw [if_neg hdc]
      exact { h.single hd with inbox := hinbox d hd }
  case told =>
    intro d e hlt he hopened hannounced
    have hdc : d ≠ c := by omega
    rw [if_neg hdc] at hopened
    rw [if_pos (h.member d (by omega) (by simp [hopened]))]
    by_cases hec : e = c
    · exact List.mem_append_right _ (List.mem_singleton.mpr hec)
    · exact List.mem_append_left _ (h.told d e hlt he hopened (by simpa [hec] using hannounced))
  case adding => exact h.adding
  case fresh => exact h.fresh
  case presence =>
    intro d hd
    obtain rfl : d = c := by omega
    simpa [hmarked] using h.presence d hd

theorem mem_eraseIdx_of_ne {m d k : Nat} {inbox : List Nat} (hk : inbox[k]? = some m) (hd : d ∈ inbox) (hne : d ≠ m) : d ∈ inbox.eraseIdx k := by
  obtain ⟨i, hi⟩ := List.mem_iff_getElem?.mp hd
  refine List.mem_eraseIdx_iff_getElem?.mpr ⟨i, ?_, hi⟩
  rintro rfl
  exact hne (Option.some.inj (hi.symm.trans hk))

/-- A message from another connection is from a newer one. -/
theorem Ordered.deliver (h : Ordered s) (c k : Nat) : Ordered (s.deliver c k) := by
  refine when_keeps h fun hc hstage => ?_
  split
  · exact h
  · rename_i sender hsender
    have hone := h.single hc
    have hnewer := hone.inbox sender (List.mem_of_getElem? hsender)
    have hinbox : ∀ m ∈ (s.connection c).inbox.eraseIdx k, c ≤ m ∧ m < s.started := fun m hm => hone.inbox m (List.mem_of_mem_eraseIdx hm)
    have hpast : (s.connection c).stage ∉ [Stage.joined, .marked] ∧ (s.connection c).stage ≠ .joined := by
      rcases List.mem_cons.1 hstage with hopened | hclosed
      · simp [hopened]
      · simp [List.mem_singleton.1 hclosed]
    unfold Hub.set
    by_cases hself : sender = c
    · -- a connection that is still open after this message has handled its own
      simp only [hself, if_true]
      refine h.update hc { hone with inbox := hinbox } id (fun hopen => ⟨hopen, fun d hd hne => ?_⟩) (h.adding c) (h.presence_update Iff.rfl)
      exact mem_eraseIdx_of_ne (hself ▸ hsender) hd hne
    · simp only [hself, if_false]
      refine h.update hc ?_ (fun _ => hpast.1) nofun (h.adding c) (h.presence_update (by simp [hpast.2]))
      exact ⟨by simp, fun _ => hone.member (List.mem_cons_of_mem _ (List.mem_cons_of_mem _ hstage)), hinbox, fun _ => rfl, fun _ => by omega, by simp⟩

theorem Ordered.leave (h : Ordered s) (c : Nat) : Ordered (s.leave c) := by
  refine when_keeps h fun hc hstage => ?_
  have hclosed : (s.connection c).stage = .closed := List.mem_singleton.1 hstage
  refine h.update hc ?_ (by simp [hclosed]) nofun (h.adding c) (h.presence_update (by simp [hclosed]))
  exact { h.single hc with
    connecting := by simp, member := by simp, ended := fun _ => h.ended c hc (by simp [hclosed]), clearing := by simp }

/-- A connection that leaves was superseded, and does not read the presence. -/
theorem Ordered.read (h : Ordered s) (c : Nat) : Ordered (s.read c) := by
  refine when_keeps h fun hc hstage => ?_
  have hleft : (s.connection c).stage = .left := List.mem_singleton.1 hstage
  have hover := h.ended c hc (by simp [hleft])
  refine h.update hc ?_ (by simp [hleft]) (by simp [hover]) (h.adding c) (h.presence_update (by simp [hleft, hover]))
  exact { h.single hc with connecting := by simp [hover], member := by simp [hover], ended := fun _ => hover, clearing := by simp [hover] }

theorem Ordered.rejoin (h : Ordered s) (c : Nat) : Ordered (s.rejoin c) :=
  when_keeps h fun hc _ => h.update hc { h.single hc with member := fun _ => rfl } id (fun hopen => ⟨hopen, fun _ hd _ => hd⟩) (h.adding c)
    (h.presence_update Iff.rfl)

/-- Once a connection has marked its presence, there is one. -/
theorem Ordered.refresh (h : Ordered s) (c : Nat) : Ordered (s.refresh c) := by
  refine when_keeps h fun hc hstage => ?_
  split
  · exact h
  · have hsome : s.presence.isNone = false := by
      have hlast := h.presence (s.started - 1) (by omega)
      split at hlast
      · rename_i hjoined
        split at hlast
        · -- the only connection is this one, and it is past `joined`
          obtain rfl : c = s.started - 1 := by omega
          simp [hjoined] at hstage
        · rw [hlast]
          rfl
      · rw [hlast]
        rfl
    obtain ⟨connecting, member, inbox, ended, older, clearing⟩ := h.single hc
    exact h.update hc ⟨connecting, member, inbox, ended, older, clearing⟩ id (fun hopen => ⟨hopen, fun _ hd _ => hd⟩) hsome (h.presence_update Iff.rfl)

theorem Ordered.step (h : Ordered s) {e : Step} (hok : StepOk s e) (hclose : ∀ c, e ≠ .close c) : Ordered (s.step e) := by
  cases e with
  | join => exact h.join hok
  | mark c => exact h.mark c
  | announce c => exact h.announce c
  | deliver c k => exact h.deliver c k
  | close c => exact absurd rfl (hclose c)
  | leave c => exact h.leave c
  | read c => exact h.read c
  | delete c => exact when_keeps h fun hc hstage => absurd (by simpa using hstage) (h.clearing c hc)
  | rejoin c => exact h.rejoin c
  | refresh c => exact h.refresh c
  | add c => simpa only [Hub.step, Hub.add, h.adding c, Bool.false_eq_true, if_false] using h

theorem converged_of_settled (h : Ordered s) (hs : s.Settled) : s.Converged := by
  by_cases hzero : s.started = 0
  · exact .inl hzero
  · refine .inr ⟨s.started - 1, by omega, ?_⟩
    have hlast : s.started - 1 < s.started := by omega
    have hopened : (s.connection (s.started - 1)).stage = .opened := by
      rcases hs _ hlast with ⟨hstage, -⟩ | hgone
      · exact hstage
      · have := h.older _ hlast (h.ended _ hlast (by simp [hgone]))
        omega
    refine ⟨⟨hlast, by simp [hopened]⟩, ?_, ?_⟩
    · rintro d ⟨hd, hopen⟩
      rcases hs d hd with ⟨hstage, hinbox⟩ | hgone
      · by_contra hne
        have htold := h.told d (s.started - 1) (by omega) hlast hstage (by simp [hopened])
        rw [hinbox] at htold
        cases htold
      · simp [hgone] at hopen
    · have := h.presence (s.started - 1) (by omega)
      simpa [hopened] using this

theorem along_keepsOpen {events : List Step} (hs : Owned s) (h : Along Hub.step StepOk s events) : Along Hub.step KeepsOpen s events := by
  induction events generalizing s with
  | nil => trivial
  | cons e events ih => exact ⟨keepsOpen hs e, ih (hs.step h.1) h.2⟩

end TakeoverAux

open TakeoverAux

/-- In every run in which no connection starts while another one connects and none marks its presence while another one is about to delete its own: no
call of a closed connection removes or replaces the presence of an open one, and, when no socket was closed from outside and everything has come to rest,
the newest connection is the one that is open, and it has the presence. -/
theorem takeover_converges (events : List Step) (h : Along Hub.step StepOk Hub.empty events) :
    Along Hub.step KeepsOpen Hub.empty events ∧
      ((∀ c, .close c ∉ events) → (events.foldl Hub.step Hub.empty).Settled → (events.foldl Hub.step Hub.empty).Converged) := by
  refine ⟨along_keepsOpen owned_empty h, fun hclose hsettled => converged_of_settled ?_ hsettled⟩
  have hboth : Along Hub.step (fun s e => StepOk s e ∧ ∀ c, e ≠ .close c) Hub.empty events := by
    refine along_and.2 ⟨h, ?_⟩
    clear h hsettled
    generalize Hub.empty = s
    induction events generalizing s with
    | nil => trivial
    | cons e events ih =>
      refine ⟨?_, ih (fun c hc => hclose c (List.mem_cons_of_mem _ hc)) _⟩
      rintro c rfl
      exact hclose c List.mem_cons_self
  exact keeps (I := Ordered) (fun s e hs he => hs.step he.1 he.2) ordered_empty hboth

/-! ## Runs of two connections -/

namespace TakeoverAux

/-- A connection connects with nothing in between. -/
def connects (c : Nat) : List Step := [.join, .mark c, .announce c, .deliver c 0]

/-- A closed connection disconnects. -/
def disconnects (c : Nat) : List Step := [.leave c, .read c]

/-- The second connection comes when the first one is open. -/
def oneByOne : List Step := connects 0 ++ connects 1 ++ [Step.refresh 0, .deliver 0 0] ++ disconnects 0

/-- The second connection joins before the first one has announced itself. -/
def together : List Step :=
  [Step.join, .join, .mark 0, .mark 1, .announce 0, .announce 1, .deliver 0 0, .deliver 0 0, .deliver 1 0, .deliver 1 0] ++ disconnects 0 ++ disconnects 1

/-- The second connection marks its presence between the read and the delete of the first one, which the agent closed. -/
def lateDelete : List Step := connects 0 ++ [Step.close 0, .leave 0, .read 0, .join, .mark 1, .delete 0]

def hubAfter (events : List Step) : Hub := events.foldl Hub.step Hub.empty

instance : DecidablePred fun s : Hub => s.Settled := fun s => Nat.decidableBallLT s.started _

instance (s : Hub) : DecidablePred (StepOk s)
  | .join => Nat.decidableBallLT s.started _
  | .mark _ => Nat.decidableBallLT s.started _
  | .announce _ | .deliver _ _ | .close _ | .leave _ | .read _ | .delete _ | .rejoin _ | .refresh _ | .add _ => isTrue trivial

end TakeoverAux

theorem second_connection_takes_over :
    (hubAfter oneByOne).Converged ∧ (hubAfter oneByOne).started = 2 ∧ Along Hub.step KeepsOpen Hub.empty oneByOne := by
  have h := takeover_converges oneByOne (by decide +kernel)
  exact ⟨h.2 (fun c => by simp [oneByOne, connects, disconnects]) (by decide +kernel), by decide +kernel, h.1⟩

/-- Two connections close each other, and everything is at rest with none open; and a closed connection deletes the presence of an open one. -/
theorem connections_close_each_other :
    ((∀ c, .close c ∉ together) ∧ (hubAfter together).Settled ∧ (hubAfter together).started = 2 ∧ ∀ c, ¬ (hubAfter together).IsOpen c) ∧
      ¬ Along Hub.step KeepsOpen Hub.empty lateDelete := by
  refine ⟨⟨fun c => by simp [together, disconnects], by decide +kernel, by decide +kernel, ?_⟩, fun h => ?_⟩
  · rintro c ⟨hc, hopen⟩
    have hnone : ∀ c < (hubAfter together).started, ((hubAfter together).connection c).stage ∉ [Stage.joined, .marked, .opened] := by decide +kernel
    exact hnone c hc hopen
  · have hlast : lateDelete = lateDelete.dropLast ++ [.delete 0] := rfl
    rw [hlast, along_append] at h
    have hkeeps := h.2.1 0 1 (by simp) (by unfold Hub.IsOpen; decide +kernel) (by decide +kernel)
    exact absurd hkeeps (by decide +kernel)

end EndpointTransport

end TecTac

import TecTac.TerminalTickets
import TecTac.Lib.Raise

/-!
# A terminal ticket works once

What the sockets of a run hold is kept as one invariant: an entry of the cache was stored by a call that is past its `cache.add`, no entry of a call that
was taken out is still there, and what a socket holds comes from the call whose ticket has its key.
-/

namespace TecTac

namespace TerminalTickets

/-- The checks of `issue_ticket` held. -/
structure Granted (w : World) (r : Request) (v : Value) : Prop where
  user : r.user = some v.userId
  kind : r.kind = some v.kind
  owner : w.ownerRefusal v.moduleId v.kind = false
  agent : v.kind = .agentTerminal →
    w.permission v.userId .agentTerminal = true ∧ ∃ a, v.agentId = some a ∧ agentIdPattern a = true ∧ w.inScope v.userId a = some true
  server : v.kind = .serverTerminal →
    v.agentId = none ∧ w.effectiveSuperuser v.userId = true ∧ w.serverTerminalEnabled = true ∧ w.permission v.userId .serverTerminal = true
  digest : v.knoxDigest ≠ ""

/-- The sign-in holds, and the person may still have the terminal. -/
structure Standing (w : World) (v : Value) : Prop where
  signIn : w.refused v = false ∧ w.userPresent v.userId = true
  agent : v.kind = .agentTerminal → w.permission v.userId .agentTerminal = true ∧ ∃ a, v.agentId = some a ∧ w.inScope v.userId a = some true
  server : v.kind = .serverTerminal →
    w.effectiveSuperuser v.userId = true ∧ w.serverTerminalEnabled = true ∧ w.permission v.userId .serverTerminal = true

/-- A terminal that runs stands on a ticket that was issued for it: its own socket took the ticket, less than thirty seconds after it was minted, the
checks held then, the last recheck held, and the start row names it. -/
structure Served (st : State) (s : Nat) (path : Kind) (t : Taken) (seen : World) : Prop where
  taken : (s, t.entry.issuer) ∈ st.uses
  issued : ∃ m, (st.issues t.entry.issuer).mint? = some m ∧ m.value = t.entry.value ∧ Granted m.seen m.request m.value ∧ t.time < m.time + ticketTtl
  kind : t.entry.value.kind = path
  standing : Standing seen t.entry.value
  row : startRow s t.entry.value ∈ st.rows

namespace TicketAux

open Raise

theorem granted_of_mint {w : World} {now : Int} {sessionId : String} {r : Request} {v : Value} (h : mint w now sessionId r = .ok v) :
    Granted w r v ∧ v.expiresAt = now + ticketTtl := by
  unfold mint at h
  split at h
  · cases h
  · rename_i user huser
    split at h
    · cases h
    · rename_i kind hkind
      obtain ⟨agentId, hagent, h⟩ := bind_ok h
      split at h
      · cases h
      · rename_i howner
        obtain ⟨_, hperson, h⟩ := bind_ok h
        split at h
        · cases h
        · rename_i hdigest
          cases h
          refine ⟨⟨huser, hkind, by simpa using howner, ?_, ?_, hdigest⟩, rfl⟩
          · rintro rfl
            cases hr : r.agentId with
            | absent => simp [hr, checkAgentArg] at hagent
            | other => simp [hr, checkAgentArg] at hagent
            | text a =>
              simp only [hr, checkAgentArg] at hagent
              split at hagent
              · rename_i hpattern
                cases hagent
                simp only [checkPerson, Option.bind_some] at hperson
                split at hperson
                · cases hperson
                · rename_i hpermission
                  split at hperson
                  · rename_i hscope
                    refine ⟨by simpa using hpermission, a, rfl, hpattern, ?_⟩
                    cases hs : w.inScope user a with
                    | none => simp [hs] at hscope
                    | some inside => simpa [hs] using hscope
                  · cases hperson
              · cases hagent
          · rintro rfl
            cases hr : r.agentId with
            | other => simp [hr, checkAgentArg] at hagent
            | text a => simp [hr, checkAgentArg] at hagent
            | absent =>
              simp only [hr, checkAgentArg] at hagent
              cases hagent
              simp only [checkPerson] at hperson
              split at hperson
              · cases hperson
              · rename_i hsuper
                split at hperson
                · cases hperson
                · rename_i havailable
                  simp only [World.serverTerminalAvailable, Bool.not_eq_true, Bool.not_eq_false', Bool.and_eq_true] at havailable
                  exact ⟨rfl, by simpa using hsuper, havailable.1, havailable.2⟩

theorem standing_of_recheck {w : World} {v : Value} (h : recheck w v = none) : Standing w v := by
  unfold recheck at h
  split at h
  · cases h
  · rename_i hrefused
    split at h
    · cases h
    · rename_i hpresent
      refine ⟨⟨by simpa using hrefused, by simpa using hpresent⟩, ?_, ?_⟩
      · intro hkind
        simp only [hkind] at h
        split at h
        · cases h
        · rename_i hpermission
          cases ha : v.agentId with
          | none => simp [ha] at h
          | some a =>
            refine ⟨by simpa using hpermission, a, rfl, ?_⟩
            cases hs : w.inScope v.userId a with
            | none => simp [ha, hs] at h
            | some inside =>
              cases inside with
              | true => rfl
              | false => simp [ha, hs] at h
      · intro hkind
        simp only [hkind] at h
        split at h
        · cases h
        · rename_i hsuper
          split at h
          · cases h
          · rename_i hoff
            simp only [Bool.not_eq_true, Bool.or_eq_false_iff, Bool.not_eq_false'] at hoff
            exact ⟨by simpa using hsuper, hoff.1, hoff.2⟩

/-! ### The invariant -/

/-- The ticket of a call that is past its `cache.add`. -/
def past? : Issue → Option Minted
  | .minted _ => none
  | stage => stage.mint?

theorem mint_of_past {stage : Issue} {m : Minted} (h : past? stage = some m) : stage.mint? = some m := by
  cases stage with
  | minted _ => cases h
  | _ => exact h

/-- What a socket has in its hands: the ticket it came with, and the entry it read. -/
def entry? : Socket → Option (String × Entry)
  | .read _ _ ticket entry => some (ticket, entry)
  | .took _ _ ticket entry => some (ticket, entry)
  | .valid _ t => some (t.ticket, t.entry)
  | .admitted _ t _ => some (t.ticket, t.entry)
  | .recorded _ t _ => some (t.ticket, t.entry)
  | .running _ t _ => some (t.ticket, t.entry)
  | _ => none

/-- A ticket that a socket took in time, on the path of its kind. -/
def InTime (uses : List (Nat × Nat)) (s : Nat) (path : Kind) (t : Taken) : Prop :=
  (s, t.entry.issuer) ∈ uses ∧ t.time < t.entry.value.expiresAt ∧ t.entry.value.kind = path

/-- What the checks so far say of a socket. -/
def Checked (rows : List StartRow) (uses : List (Nat × Nat)) (s : Nat) : Socket → Prop
  | .took _ _ _ entry => (s, entry.issuer) ∈ uses
  | .valid path t => InTime uses s path t
  | .admitted path t seen => InTime uses s path t ∧ recheck seen t.entry.value = none
  | .recorded path t seen => InTime uses s path t ∧ recheck seen t.entry.value = none ∧ startRow s t.entry.value ∈ rows
  | .running path t seen => InTime uses s path t ∧ recheck seen t.entry.value = none ∧ startRow s t.entry.value ∈ rows
  | _ => True

theorem checked_mono {rows rows' : List StartRow} {uses uses' : List (Nat × Nat)} (hrows : rows ⊆ rows') (huses : uses ⊆ uses') {s : Nat}
    {stage : Socket} (h : Checked rows uses s stage) : Checked rows' uses' s stage := by
  cases stage with
  | took path origin ticket entry => exact huses h
  | valid path t => exact ⟨huses h.1, h.2⟩
  | admitted path t seen => exact ⟨⟨huses h.1.1, h.1.2⟩, h.2⟩
  | recorded path t seen => exact ⟨⟨huses h.1.1, h.1.2⟩, h.2.1, hrows h.2.2⟩
  | running path t seen => exact ⟨⟨huses h.1.1, h.1.2⟩, h.2.1, hrows h.2.2⟩
  | _ => exact h

section

variable (sha256 : String → String)

structure Inv (st : State) : Prop where
  keys : ∀ i j m m', (st.issues i).mint? = some m → (st.issues j).mint? = some m' → cacheKey sha256 m.ticket = cacheKey sha256 m'.ticket → i = j
  minted : ∀ i m, (st.issues i).mint? = some m → ∃ sessionId, mint m.seen m.time sessionId m.request = .ok m.value
  cached : ∀ key entry, st.cache key = some entry →
    (∃ m, past? (st.issues entry.issuer) = some m ∧ cacheKey sha256 m.ticket = key ∧ m.value = entry.value) ∧ entry.issuer ∉ st.uses.map Prod.snd
  held : ∀ s ticket entry, entry? (st.sockets s) = some (ticket, entry) →
    ∃ m, past? (st.issues entry.issuer) = some m ∧ cacheKey sha256 m.ticket = cacheKey sha256 ticket ∧ m.value = entry.value
  used : ∀ use ∈ st.uses, ∃ m, past? (st.issues use.2) = some m
  once : (st.uses.map Prod.snd).Nodup
  checked : ∀ s, Checked st.rows st.uses s (st.sockets s)

variable {sha256} {st : State}

theorem inv_start (w : World) : Inv sha256 (startState w) where
  keys i j m m' h := by cases h
  minted i m h := by cases h
  cached key entry h := by cases h
  held s ticket entry h := by cases h
  used use h := by cases h
  once := List.nodup_nil
  checked s := trivial

theorem inv_clock (h : Inv sha256 st) (now : Int) : Inv sha256 { st with now := now } := ⟨h.keys, h.minted, h.cached, h.held, h.used, h.once, h.checked⟩

theorem inv_world (h : Inv sha256 st) (w : World) : Inv sha256 { st with world := w } := ⟨h.keys, h.minted, h.cached, h.held, h.used, h.once, h.checked⟩

/-- An entry that goes leaves the others. -/
theorem inv_drop (h : Inv sha256 st) (key : String) : Inv sha256 (st.setCache key none) := by
  refine ⟨h.keys, h.minted, ?_, h.held, h.used, h.once, h.checked⟩
  intro k entry hentry
  by_cases hk : k = key
  · subst hk
    simp [State.setCache] at hentry
  · rw [State.setCache] at hentry
    simp only [Function.update_of_ne hk] at hentry
    exact h.cached k entry hentry

/-- A call that goes on with the ticket it minted. -/
theorem inv_setIssue (h : Inv sha256 st) {i : Nat} (stage : Issue) (hmint : stage.mint? = (st.issues i).mint?)
    (hpast : ∀ m, past? (st.issues i) = some m → past? stage = some m) : Inv sha256 (st.setIssue i stage) := by
  have hmints : ∀ j, ((st.setIssue i stage).issues j).mint? = (st.issues j).mint? := by
    intro j
    by_cases hj : j = i
    · subst hj
      simpa [State.setIssue] using hmint
    · simp [State.setIssue, Function.update_of_ne hj]
  have hpasts : ∀ j m, past? (st.issues j) = some m → past? ((st.setIssue i stage).issues j) = some m := by
    intro j m hm
    by_cases hj : j = i
    · subst hj
      simpa [State.setIssue] using hpast m hm
    · simpa [State.setIssue, Function.update_of_ne hj] using hm
  refine ⟨?_, ?_, ?_, ?_, ?_, h.once, h.checked⟩
  · intro j k m m' hj hk
    rw [hmints] at hj hk
    exact h.keys j k m m' hj hk
  · intro j m hj
    rw [hmints] at hj
    exact h.minted j m hj
  · intro key entry hentry
    obtain ⟨⟨m, hm, hkey⟩, hnot⟩ := h.cached key entry hentry
    exact ⟨⟨m, hpasts _ m hm, hkey⟩, hnot⟩
  · intro s ticket entry hheld
    obtain ⟨m, hm, hkey⟩ := h.held s ticket entry hheld
    exact ⟨m, hpasts _ m hm, hkey⟩
  · intro use huse
    obtain ⟨m, hm⟩ := h.used use huse
    exact ⟨m, hpasts _ m hm⟩

/-- A socket that goes on with the entry it has, or without one. -/
theorem inv_setSocket (h : Inv sha256 st) {s : Nat} {stage : Socket} (hentry : ∀ p, entry? stage = some p → entry? (st.sockets s) = some p)
    (hchecked : Checked st.rows st.uses s stage) : Inv sha256 (st.setSocket s stage) := by
  refine ⟨h.keys, h.minted, h.cached, ?_, h.used, h.once, ?_⟩
  · intro s' ticket entry hheld
    by_cases hs : s' = s
    · subst hs
      exact h.held s' ticket entry (hentry _ (by simpa [State.setSocket] using hheld))
    · exact h.held s' ticket entry (by simpa [State.setSocket, Function.update_of_ne hs] using hheld)
  · intro s'
    by_cases hs : s' = s
    · subst hs
      simpa [State.setSocket] using hchecked
    · simpa [State.setSocket, Function.update_of_ne hs] using h.checked s'

theorem inv_closed (h : Inv sha256 st) (s code : Nat) : Inv sha256 (st.setSocket s (.closed code)) := inv_setSocket h (by intro p hp; cases hp) trivial

/-- A check of the sign-in closes the socket or lets it go on. -/
theorem inv_watched (h : Inv sha256 st) {s : Nat} {t : Taken} {stays : Socket} (hentry : ∀ p, entry? stays = some p → entry? (st.sockets s) = some p)
    (hchecked : recheck st.world t.entry.value = none → Checked st.rows st.uses s stays) : Inv sha256 (st.setSocket s (watched st.world t stays)) := by
  unfold watched
  split
  · exact inv_closed h s _
  · rename_i hnone
    exact inv_setSocket h hentry (hchecked hnone)

/-- A call that mints a ticket of a new key. -/
theorem inv_mint (h : Inv sha256 st) {i : Nat} {m : Minted} (hidle : st.issues i = .idle) {sessionId : String}
    (hmint : mint m.seen m.time sessionId m.request = .ok m.value)
    (hfresh : ∀ j m', (st.issues j).mint? = some m' → cacheKey sha256 m'.ticket ≠ cacheKey sha256 m.ticket) :
    Inv sha256 (st.setIssue i (.minted m)) := by
  have hother : ∀ j m', past? (st.issues j) = some m' → j ≠ i := by
    rintro j m' hm rfl
    rw [hidle] at hm
    cases hm
  have hpasts : ∀ j m', past? (st.issues j) = some m' → past? ((st.setIssue i (.minted m)).issues j) = some m' := by
    intro j m' hm
    simpa [State.setIssue, Function.update_of_ne (hother j m' hm)] using hm
  have hmints : ∀ j m', ((st.setIssue i (.minted m)).issues j).mint? = some m' → j = i ∧ m' = m ∨ j ≠ i ∧ (st.issues j).mint? = some m' := by
    intro j m' hm
    by_cases hj : j = i
    · subst hj
      simp only [State.setIssue, Function.update_self, Issue.mint?, Option.some.injEq] at hm
      exact Or.inl ⟨rfl, hm.symm⟩
    · exact Or.inr ⟨hj, by simpa [State.setIssue, Function.update_of_ne hj] using hm⟩
  refine ⟨?_, ?_, ?_, ?_, ?_, h.once, h.checked⟩
  · intro j k a b hj hk hkey
    rcases hmints j a hj with ⟨rfl, rfl⟩ | ⟨-, hj'⟩ <;> rcases hmints k b hk with ⟨rfl, rfl⟩ | ⟨-, hk'⟩
    · rfl
    · exact absurd hkey.symm (hfresh k b hk')
    · exact absurd hkey (hfresh j a hj')
    · exact h.keys j k a b hj' hk' hkey
  · intro j a hj
    rcases hmints j a hj with ⟨-, rfl⟩ | ⟨-, hj⟩
    · exact ⟨sessionId, hmint⟩
    · exact h.minted j a hj
  · intro key entry hentry
    obtain ⟨⟨a, ha, hkey⟩, hnot⟩ := h.cached key entry hentry
    exact ⟨⟨a, hpasts _ a ha, hkey⟩, hnot⟩
  · intro s ticket entry hheld
    obtain ⟨a, ha, hkey⟩ := h.held s ticket entry hheld
    exact ⟨a, hpasts _ a ha, hkey⟩
  · intro use huse
    obtain ⟨a, ha⟩ := h.used use huse
    exact ⟨a, hpasts _ a ha⟩

/-- A call that stores its value. -/
theorem inv_add (h : Inv sha256 st) {i : Nat} {m : Minted} (hi : st.issues i = .minted m) :
    Inv sha256 ((st.setCache (cacheKey sha256 m.ticket) (some ⟨i, m.value⟩)).setIssue i (.stored m)) := by
  have hnot : i ∉ st.uses.map Prod.snd := by
    intro hmem
    obtain ⟨use, huse, rfl⟩ := List.mem_map.1 hmem
    obtain ⟨a, ha⟩ := h.used use huse
    rw [hi] at ha
    cases ha
  have hstored := inv_setIssue h (.stored m) (by rw [hi]; rfl) (by rw [hi]; intro a ha; cases ha)
  refine ⟨hstored.keys, hstored.minted, ?_, hstored.held, hstored.used, h.once, h.checked⟩
  intro key entry hentry
  by_cases hkey : key = cacheKey sha256 m.ticket
  · subst hkey
    simp only [State.setIssue, State.setCache, Function.update_self, Option.some.injEq] at hentry
    subst hentry
    exact ⟨⟨m, by simp [State.setIssue, past?, Issue.mint?], rfl, rfl⟩, hnot⟩
  · simp only [State.setIssue, State.setCache, Function.update_of_ne hkey] at hentry
    exact hstored.cached key entry hentry

/-- A socket that reads an entry. -/
theorem inv_read (h : Inv sha256 st) {s : Nat} {path : Kind} {origin : Bool} {ticket : String} {entry : Entry}
    (hentry : st.cache (cacheKey sha256 ticket) = some entry) : Inv sha256 (st.setSocket s (.read path origin ticket entry)) := by
  obtain ⟨⟨m, hm, hkey, hvalue⟩, -⟩ := h.cached _ entry hentry
  refine ⟨h.keys, h.minted, h.cached, ?_, h.used, h.once, ?_⟩
  · intro s' ticket' entry' hheld
    by_cases hs : s' = s
    · subst hs
      simp only [State.setSocket, Function.update_self, entry?, Option.some.injEq, Prod.mk.injEq] at hheld
      obtain ⟨rfl, rfl⟩ := hheld
      exact ⟨m, hm, hkey, hvalue⟩
    · exact h.held s' ticket' entry' (by simpa [State.setSocket, Function.update_of_ne hs] using hheld)
  · intro s'
    by_cases hs : s' = s
    · subst hs
      simp [State.setSocket, Checked]
    · simpa [State.setSocket, Function.update_of_ne hs] using h.checked s'

/-- A socket that takes an entry out: it is the one it read, and no other socket took it. -/
theorem inv_take (h : Inv sha256 st) {s : Nat} {path : Kind} {origin : Bool} {ticket : String} {entry there : Entry}
    (hs : st.sockets s = .read path origin ticket entry) (hthere : st.cache (cacheKey sha256 ticket) = some there) :
    Inv sha256 ({ st.setCache (cacheKey sha256 ticket) none with uses := (s, entry.issuer) :: st.uses }.setSocket s (.took path origin ticket entry)) := by
  obtain ⟨m, hm, hkey, hvalue⟩ := h.held s ticket entry (by rw [hs]; rfl)
  obtain ⟨⟨m', hm', hkey', -⟩, hnot⟩ := h.cached _ there hthere
  have hsame : there.issuer = entry.issuer := h.keys _ _ m' m (mint_of_past hm') (mint_of_past hm) (hkey'.trans hkey.symm)
  rw [hsame] at hnot
  have hdropped := inv_drop h (cacheKey sha256 ticket)
  refine ⟨h.keys, h.minted, ?_, ?_, ?_, List.nodup_cons.2 ⟨hnot, h.once⟩, ?_⟩
  · intro key e he
    obtain ⟨⟨a, ha, hakey, havalue⟩, hunused⟩ := hdropped.cached key e he
    refine ⟨⟨a, ha, hakey, havalue⟩, ?_⟩
    -- another call's entry: the key of this one is empty now
    have hne : e.issuer ≠ entry.issuer := by
      intro heq
      rw [heq] at ha
      have ham := Option.some.inj (ha.symm.trans hm)
      subst ham
      rw [hkey] at hakey
      subst hakey
      simp [State.setSocket, State.setCache] at he
    exact fun hmem => (List.mem_cons.1 hmem).elim hne hunused
  · intro s' ticket' entry' hheld
    by_cases hsame' : s' = s
    · subst hsame'
      exact h.held s' ticket' entry' (by rw [← hheld]; simp [State.setSocket, State.setCache, hs, entry?])
    · exact h.held s' ticket' entry' (by simpa [State.setSocket, State.setCache, Function.update_of_ne hsame'] using hheld)
  · intro use huse
    rcases List.mem_cons.1 huse with rfl | huse
    · exact ⟨m, hm⟩
    · exact h.used use huse
  · intro s'
    by_cases hsame' : s' = s
    · subst hsame'
      simp [State.setSocket, State.setCache, Checked]
    · have hold := checked_mono (List.Subset.refl _) (List.subset_cons_self (s, entry.issuer) _) (h.checked s')
      simpa [State.setSocket, State.setCache, Function.update_of_ne hsame'] using hold

/-- Every step keeps the invariant, where a ticket that is minted is a new one. -/
theorem inv_step (h : Inv sha256 st) (e : Event) (hfresh : FreshTicket sha256 st e) : Inv sha256 (step sha256 st e) := by
  cases e with
  | clock now => exact inv_clock h now
  | world w => exact inv_world h w
  | lost key => exact inv_drop h key
  | issue i request ticket sessionId =>
    simp only [step, issueStep]
    split
    · rename_i hidle
      split
      · exact inv_setIssue h _ (by rw [hidle]; rfl) (by rw [hidle]; intro m hm; cases hm)
      · rename_i value hmint
        exact inv_mint h hidle hmint hfresh
    · exact h
  | add i fails =>
    simp only [step, issueStep]
    split
    · rename_i m hi
      have hlate : Inv sha256 (st.setIssue i (.unavailable m)) := inv_setIssue h _ (by rw [hi]; rfl) (by rw [hi]; intro a ha; cases ha)
      split
      · exact hlate
      · split
        · exact hlate
        · exact inv_add h hi
    · exact h
  | confirm i fails =>
    simp only [step, issueStep]
    split
    · rename_i m hi
      have hmoves : ∀ stage : Issue, stage.mint? = some m → past? stage = some m → Inv sha256 (st.setIssue i stage) :=
        fun stage hmint hpast => inv_setIssue h _ (by rw [hi, hmint]; rfl) (by rw [hi, hpast]; exact fun a ha => ha)
      split
      · exact hmoves _ rfl rfl
      · split
        · exact hmoves _ rfl rfl
        · exact hmoves _ rfl rfl
    · exact h
  | discard i =>
    simp only [step, issueStep]
    split
    · rename_i m hi
      exact inv_setIssue (inv_drop h _) _ (by simp only [State.setCache]; rw [hi]; rfl) (by simp only [State.setCache]; rw [hi]; exact fun a ha => ha)
    · exact h
  | connect s path origin ticket =>
    simp only [step, socketStep]
    split
    · split
      · exact inv_setSocket h (by intro p hp; cases hp) trivial
      · exact inv_closed h s _
    · exact h
  | read s fails =>
    simp only [step, socketStep]
    split
    · split
      · exact inv_closed h s _
      · split
        · exact inv_closed h s _
        · rename_i entry hentry
          exact inv_read h hentry
    · exact h
  | take s fails =>
    simp only [step, socketStep]
    split
    · rename_i path origin ticket entry hs
      split
      · exact inv_closed h s _
      · split
        · exact inv_closed h s _
        · rename_i there hthere
          exact inv_take h hs hthere
    · exact h
  | expiry s =>
    simp only [step, socketStep]
    split
    · rename_i path origin ticket entry hs
      split
      · exact inv_closed h s _
      · rename_i hearly
        split
        · exact inv_closed h s _
        · rename_i hkind
          split
          · exact inv_closed h s _
          · have htook := h.checked s
            rw [hs] at htook
            exact inv_setSocket h (by rw [hs]; exact fun p hp => hp) ⟨htook, not_le.1 hearly, not_not.1 hkind⟩
    · exact h
  | recheck s =>
    simp only [step, socketStep]
    have hchecked := h.checked s
    split
    · rename_i path t hs
      rw [hs] at hchecked
      exact inv_watched h (by rw [hs]; exact fun p hp => hp) fun hnone => ⟨hchecked, hnone⟩
    · rename_i t seen hs
      rw [hs] at hchecked
      exact inv_watched h (by rw [hs]; exact fun p hp => hp) fun hnone => ⟨hchecked.1, hnone⟩
    · rename_i t seen hs
      rw [hs] at hchecked
      exact inv_watched h (by rw [hs]; exact fun p hp => hp) fun hnone => ⟨hchecked.1, hnone, hchecked.2.2⟩
    · rename_i path t seen hs
      rw [hs] at hchecked
      exact inv_watched h (by rw [hs]; exact fun p hp => hp) fun hnone => ⟨hchecked.1, hnone, hchecked.2.2⟩
    · exact h
  | startRow s recorded =>
    simp only [step, socketStep]
    split
    · rename_i path t seen hs
      have hchecked := h.checked s
      rw [hs] at hchecked
      split
      · have hrows : Inv sha256 { st with rows := startRow s t.entry.value :: st.rows } := by
          refine ⟨h.keys, h.minted, h.cached, h.held, h.used, h.once, fun s' => ?_⟩
          exact checked_mono (List.subset_cons_self _ _) (List.Subset.refl _) (h.checked s')
        exact inv_setSocket hrows (by simp only [hs]; exact fun p hp => hp) ⟨hchecked.1, hchecked.2, List.mem_cons_self⟩
      · split
        · exact h
        · exact inv_closed h s _
    · exact h
  | start s refusal =>
    simp only [step, socketStep]
    split
    · rename_i path t seen hs
      have hchecked := h.checked s
      rw [hs] at hchecked
      split
      · exact inv_setSocket h (by rw [hs]; exact fun p hp => hp) hchecked
      · exact inv_setSocket h (by rw [hs]; exact fun p hp => hp) ⟨hchecked.1, hchecked.2.1⟩
      · exact inv_closed h s _
    · exact h
  | close s code => exact inv_closed h s code

end

end TicketAux

section

variable (sha256 : String → String)

open TicketAux in
/-- Whatever the order of the steps, every ticket that a call stored is taken out by at most one socket, and a terminal that runs stands on a ticket that
was issued for it. -/
theorem ticket_works_once (w : World) (events : List Event) (hfresh : Machine.Along (step sha256) (FreshTicket sha256) (startState w) events) :
    ((events.foldl (step sha256) (startState w)).uses.map Prod.snd).Nodup ∧
      ∀ s path t seen, (events.foldl (step sha256) (startState w)).sockets s = .running path t seen →
        Served (events.foldl (step sha256) (startState w)) s path t seen := by
  have hinv := Machine.keeps (I := Inv sha256) (fun st e h hf => inv_step h e hf) (inv_start w) hfresh
  refine ⟨hinv.once, fun s path t seen hs => ?_⟩
  obtain ⟨m, hm, -, hvalue⟩ := hinv.held s t.ticket t.entry (by rw [hs]; rfl)
  have hmint := mint_of_past hm
  obtain ⟨sessionId, hminted⟩ := hinv.minted _ m hmint
  obtain ⟨hgranted, hexpires⟩ := granted_of_mint hminted
  have hchecked := hinv.checked s
  rw [hs] at hchecked
  obtain ⟨⟨htaken, htime, hkind⟩, hrecheck, hrow⟩ := hchecked
  refine ⟨htaken, ⟨m, hmint, hvalue, hgranted, ?_⟩, hkind, standing_of_recheck hrecheck, hrow⟩
  rwa [← hvalue, hexpires] at htime

end

/-- Person 7 is in a role that may use terminals, and sees the agent. -/
def sampleWorld : World :=
  ⟨fun _ _ => false, fun _ => false, false, fun user _ => user == 7, fun _ a => some (a == "agent-1"), fun _ => false, fun user => user == 7⟩

def sampleTicket : String := "0123456789abcdefghijklmnopqrstuvwxyzABCDEFG"

/-- Two sockets race for one ticket; the first one gets it, and its shell starts. -/
def sampleRun : List Event :=
  [.issue 0 ⟨some 7, "trust", "digest", "remote-background", some .agentTerminal, .text "agent-1", "c1"⟩ sampleTicket "session", .add 0 false,
    .confirm 0 false, .connect 1 .agentTerminal true sampleTicket, .connect 2 .agentTerminal true sampleTicket, .read 1 false, .read 2 false,
    .clock 1000000, .take 1 false, .take 2 false, .expiry 1, .expiry 2, .recheck 1, .startRow 1 true, .start 1 none]

theorem sample_ticket_works_once :
    (((sampleRun.foldl (step id) (startState sampleWorld)).uses.map Prod.snd).Nodup ∧
      ∀ s path t seen, (sampleRun.foldl (step id) (startState sampleWorld)).sockets s = .running path t seen →
        Served (sampleRun.foldl (step id) (startState sampleWorld)) s path t seen) ∧
      (sampleRun.foldl (step id) (startState sampleWorld)).uses = [(1, 0)] := by
  refine ⟨ticket_works_once id sampleWorld sampleRun ⟨?_, ?_⟩, rfl⟩
  · intro j m hm
    cases hm
  · exact ⟨trivial, trivial, trivial, trivial, trivial, trivial, trivial, trivial, trivial, trivial, trivial, trivial, trivial, trivial, trivial⟩

end TerminalTickets

end TecTac

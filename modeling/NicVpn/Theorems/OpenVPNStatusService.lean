import NicVpn.OpenVPNStatusService

/-! Every process shows the status of OpenVPN: whatever is done in which order, a process whose registration has
    missed no later update shows the last one as soon as nothing is on its way, and it is given every log. -/

namespace NicVpn
namespace OpenVPNStatusService
open Replica VpnStatus

variable {κ ι : Type}

/-! ### Messages -/

def Message.state? : Message ι → Option UpdateMessage
  | .newState u => some u
  | .newLogItem _ => none

def Message.log? : Message ι → Option ι
  | .newState _ => none
  | .newLogItem logItem => some logItem

def states (l : List (Message ι)) : List UpdateMessage := l.filterMap Message.state?

def logs (l : List (Message ι)) : List ι := l.filterMap Message.log?

@[simp] theorem states_nil : states ([] : List (Message ι)) = [] := rfl

@[simp] theorem states_cons_state (u : UpdateMessage) (l : List (Message ι)) : states (.newState u :: l) = u :: states l := rfl

@[simp] theorem states_cons_log (i : ι) (l : List (Message ι)) : states (.newLogItem i :: l) = states l := rfl

@[simp] theorem states_append (l l' : List (Message ι)) : states (l ++ l') = states l ++ states l' := List.filterMap_append

@[simp] theorem logs_nil : logs ([] : List (Message ι)) = [] := rfl

@[simp] theorem logs_cons_state (u : UpdateMessage) (l : List (Message ι)) : logs (.newState u :: l) = logs l := rfl

@[simp] theorem logs_cons_log (i : ι) (l : List (Message ι)) : logs (.newLogItem i :: l) = i :: logs l := rfl

@[simp] theorem logs_append (l l' : List (Message ι)) : logs (l ++ l') = logs l ++ logs l' := List.filterMap_append

/-- The status that a client will show when its callback has made the calls on their way. -/
def Client.view (c : Client ι) : UpdateMessage := (states c.channel).foldl (take ignores) c.status

/-! ### What holds of one client -/

/-- A client beside the messages `q` of the handler, of which `h` have been handled, and the status `st` of the
    service. The messages from the number `c.sentAt` or `c.snapAt` on are the later ones. -/
structure ClientInv (q : List (Message ι)) (h : Nat) (st : UpdateMessage) (c : Client ι) : Prop where
  fresh : c.phase = .unbound ∨ c.phase = .snapped → c.channel = [] ∧ c.status.level = .notConnected
  snapAt : c.phase ≠ .unbound → c.snapAt ≤ h + q.length
  sentAt : c.phase = .sent → c.sentAt ≤ h + q.length
  sent : c.phase = .sent → c.missedState = false → LeadsTo ignores c.view (states (q.take (c.sentAt - h))) ∧
    Accepted ignores c.view (states (q.drop (c.sentAt - h))) ∧ (states (q.drop (c.sentAt - h))).getLastD c.view = st
  registered : c.phase = .registered → c.missedState = false → (states q).foldl (take ignores) c.view = st
  later : c.phase = .snapped ∨ c.phase = .sent → c.missedLog = false →
    ∀ i ∈ c.since, i ∈ c.shown ∨ i ∈ c.pipe ∨ i ∈ logs c.channel ∨ i ∈ logs (q.drop (c.snapAt - h))
  told : c.phase = .registered → c.missedLog = false →
    ∀ i ∈ c.since, i ∈ c.shown ∨ i ∈ c.pipe ∨ i ∈ logs c.channel ∨ i ∈ logs q

section Steps
variable {q : List (Message ι)} {h : Nat} {st u : UpdateMessage} {c : Client ι} {i : ι}

theorem drop_append_of_le {α : Type} {l : List α} {n : Nat} (hn : n ≤ l.length) (a : α) :
    (l ++ [a]).drop n = l.drop n ++ [a] := by
  rw [List.drop_append_of_le_length hn]

theorem take_append_of_le {α : Type} {l : List α} {n : Nat} (hn : n ≤ l.length) (a : α) :
    (l ++ [a]).take n = l.take n := by
  rw [List.take_append_of_le_length hn]

/-- An update that the service takes is posted. -/
theorem ClientInv.post_state (hc : ClientInv q h st c) (hu : ignores st u = false) :
    ClientInv (q ++ [.newState u]) h u (c.posted (.newState u)) := by
  rw [show c.posted (.newState u) = c from rfl]
  have hlen : (q ++ [Message.newState u]).length = q.length + 1 := List.length_append
  refine { fresh := hc.fresh, snapAt := fun hp => ?_, sentAt := fun hp => ?_, sent := fun hp hm => ?_
           registered := fun hp hm => ?_, later := fun hp hm i hi => ?_, told := fun hp hm i hi => ?_ }
  · have := hc.snapAt hp
    omega
  · have := hc.sentAt hp
    omega
  · obtain ⟨hleads, hacc, hlast⟩ := hc.sent hp hm
    have hle : c.sentAt - h ≤ q.length := by
      have := hc.sentAt hp
      omega
    rw [drop_append_of_le hle, take_append_of_le hle, states_append]
    refine ⟨hleads, accepted_append_singleton hacc (by rwa [hlast]), ?_⟩
    simp
  · rw [states_append, List.foldl_append, hc.registered hp hm]
    exact take_of_not hu
  · have hle : c.snapAt - h ≤ q.length := by
      have := hc.snapAt (by rcases hp with hp | hp <;> rw [hp] <;> decide)
      omega
    rw [drop_append_of_le hle, logs_append]
    simpa using hc.later hp hm i hi
  · rw [logs_append]
    simpa using hc.told hp hm i hi

/-- A log is posted. -/
theorem ClientInv.post_log (hc : ClientInv q h st c) (i : ι) :
    ClientInv (q ++ [.newLogItem i]) h st (c.posted (.newLogItem i)) := by
  by_cases hun : c.phase = .unbound
  · have hpost : c.posted (.newLogItem i) = c := if_pos hun
    rw [hpost]
    exact { fresh := hc.fresh, snapAt := fun hp => absurd hun hp
            sentAt := fun hp => by rw [hun] at hp; cases hp
            sent := fun hp => by rw [hun] at hp; cases hp
            registered := fun hp => by rw [hun] at hp; cases hp
            later := fun hp => by rw [hun] at hp; rcases hp with hp | hp <;> cases hp
            told := fun hp => by rw [hun] at hp; cases hp }
  · have hpost : c.posted (.newLogItem i) = { c with since := c.since ++ [i] } := if_neg hun
    rw [hpost]
    refine { fresh := hc.fresh, snapAt := fun hp => ?_, sentAt := fun hp => ?_, sent := fun hp hm => ?_
             registered := fun hp hm => ?_, later := fun hp hm j hj => ?_, told := fun hp hm j hj => ?_ }
    · have := hc.snapAt hp
      rw [List.length_append]
      exact Nat.le_trans this (by omega)
    · have := hc.sentAt hp
      rw [List.length_append]
      exact Nat.le_trans this (by omega)
    · have hle : c.sentAt - h ≤ q.length := by
        have := hc.sentAt hp
        omega
      have hsent := hc.sent hp hm
      rw [drop_append_of_le hle, take_append_of_le hle, states_append]
      simpa [Client.view] using hsent
    · rw [states_append]
      simpa [Client.view] using hc.registered hp hm
    · have hle : c.snapAt - h ≤ q.length := by
        have := hc.snapAt hun
        omega
      rw [drop_append_of_le hle, logs_append]
      rcases List.mem_append.mp hj with hj | hj
      · have := hc.later hp hm j hj
        simp only [List.mem_append]
        tauto
      · exact .inr (.inr (.inr (List.mem_append_right _ hj)))
    · rw [logs_append]
      rcases List.mem_append.mp hj with hj | hj
      · have := hc.told hp hm j hj
        simp only [List.mem_append]
        tauto
      · exact .inr (.inr (.inr (List.mem_append_right _ hj)))

/-- What is dropped and kept of the messages when the first one is handled. -/
theorem split_tail {α : Type} (m : α) (q : List α) (at' h : Nat) :
    ((m :: q).drop (at' - h) = q.drop (at' - (h + 1)) ∧ (m :: q).take (at' - h) = m :: q.take (at' - (h + 1))) ∨
      at' ≤ h ∧ (m :: q).drop (at' - h) = m :: q ∧ q.drop (at' - (h + 1)) = q ∧ q.take (at' - (h + 1)) = [] := by
  by_cases hle : at' ≤ h
  · refine .inr ⟨hle, ?_, ?_, ?_⟩
    · rw [Nat.sub_eq_zero_of_le hle, List.drop_zero]
    · rw [Nat.sub_eq_zero_of_le (Nat.le_succ_of_le hle), List.drop_zero]
    · rw [Nat.sub_eq_zero_of_le (Nat.le_succ_of_le hle), List.take_zero]
  · obtain ⟨d, hd⟩ : ∃ d, at' - h = d + 1 := ⟨at' - h - 1, by omega⟩
    have hd' : at' - (h + 1) = d := by omega
    rw [hd, hd']
    exact .inl ⟨rfl, rfl⟩

/-- The handler sends a message to a client that is registered. -/
theorem ClientInv.broadcast_registered {m : Message ι} (hc : ClientInv (m :: q) h st c) (hp : c.phase = .registered) :
    ClientInv q (h + 1) st (c.broadcast h m) := by
  have hcast : c.broadcast h m = { c with channel := c.channel ++ [m] } := by
    unfold Client.broadcast
    rw [hp]
  have hview : (c.broadcast h m).view = (states [m]).foldl (take ignores) c.view := by
    rw [hcast, Client.view, states_append, List.foldl_append]
    rfl
  have hphase : (c.broadcast h m).phase = .registered := by rw [hcast, hp]
  refine { fresh := fun hp' => ?_, snapAt := fun _ => ?_, sentAt := fun hp' => ?_, sent := fun hp' => ?_
           registered := fun _ hm => ?_, later := fun hp' => ?_, told := fun _ hm i hi => ?_ }
  · rw [hphase] at hp'
    rcases hp' with hp' | hp' <;> cases hp'
  · have := hc.snapAt (by rw [hp]; decide)
    rw [hcast]
    simp only [List.length_cons] at this
    show c.snapAt ≤ _
    omega
  · rw [hphase] at hp'
    cases hp'
  · rw [hphase] at hp'
    cases hp'
  · have hm' : c.missedState = false := by
      rw [hcast] at hm
      exact hm
    rw [hview, ← List.foldl_append, ← states_append]
    exact hc.registered hp hm'
  · rw [hphase] at hp'
    rcases hp' with hp' | hp' <;> cases hp'
  · rw [hcast] at hm hi ⊢
    have := hc.told hp hm i hi
    rw [show m :: q = [m] ++ q from rfl, logs_append, List.mem_append] at this
    simp only [logs_append, List.mem_append]
    tauto

/-- A client that is not registered yet only has noted what it misses. -/
theorem broadcast_cases (m : Message ι) (c : Client ι) (hp : c.phase ≠ .registered) (h : Nat) :
    ∃ ml ms, c.broadcast h m = { c with missedLog := ml, missedState := ms } ∧
      (ml = false → c.missedLog = false ∧ (c.phase = .snapped ∨ c.phase = .sent → m.state? = none → h < c.snapAt)) ∧
      (ms = false → c.missedState = false ∧ (c.phase = .sent → m.log? = none → h < c.sentAt)) := by
  cases m with
  | newState u =>
    by_cases hsent : c.phase = .sent
    · refine ⟨c.missedLog, c.missedState || decide (c.sentAt ≤ h), by unfold Client.broadcast; rw [hsent],
        fun hml => ⟨hml, fun _ hstate => by cases hstate⟩, fun hms => ?_⟩
      obtain ⟨hms, hlt⟩ := Bool.or_eq_false_iff.mp hms
      exact ⟨hms, fun _ _ => Nat.lt_of_not_le (of_decide_eq_false hlt)⟩
    · refine ⟨c.missedLog, c.missedState, ?_, fun hml => ⟨hml, fun _ hstate => by cases hstate⟩,
        fun hms => ⟨hms, fun hp' => absurd hp' hsent⟩⟩
      unfold Client.broadcast
      split <;> first | rfl | contradiction
  | newLogItem i =>
    by_cases hwait : c.phase = .snapped ∨ c.phase = .sent
    · refine ⟨c.missedLog || decide (c.snapAt ≤ h), c.missedState, ?_, fun hml => ?_,
        fun hms => ⟨hms, fun _ hlog => by cases hlog⟩⟩
      · unfold Client.broadcast
        rcases hwait with hwait | hwait <;> rw [hwait]
      · obtain ⟨hml, hlt⟩ := Bool.or_eq_false_iff.mp hml
        exact ⟨hml, fun _ _ => Nat.lt_of_not_le (of_decide_eq_false hlt)⟩
    · refine ⟨c.missedLog, c.missedState, ?_, fun hml => ⟨hml, fun hp' => absurd hp' hwait⟩,
        fun hms => ⟨hms, fun _ hlog => by cases hlog⟩⟩
      show c.broadcast h (.newLogItem i) = c
      have hphase : c.phase = .unbound := by
        cases hphase : c.phase with
        | unbound => rfl
        | snapped => exact absurd (.inl hphase) hwait
        | sent => exact absurd (.inr hphase) hwait
        | registered => exact absurd hphase hp
      unfold Client.broadcast
      rw [hphase]

/-- The handler passes a client by that is not registered yet. -/
theorem ClientInv.broadcast_unregistered {m : Message ι} (hc : ClientInv (m :: q) h st c) (hp : c.phase ≠ .registered) :
    ClientInv q (h + 1) st (c.broadcast h m) := by
  obtain ⟨ml, ms, hcast, hml, hms⟩ := broadcast_cases m c hp h
  have hlen : ∀ n, n ≤ h + (m :: q).length → n ≤ h + 1 + q.length := fun n hn => by
    rw [List.length_cons] at hn
    omega
  rw [hcast]
  refine { fresh := hc.fresh, snapAt := fun hp' => hlen _ (hc.snapAt hp'), sentAt := fun hp' => hlen _ (hc.sentAt hp')
           sent := fun hp' hmissed => ?_, registered := fun hp' => absurd hp' hp
           later := fun hp' hmissed i hi => ?_, told := fun hp' => absurd hp' hp }
  · obtain ⟨hmissed, hlt⟩ := hms hmissed
    obtain ⟨hleads, hacc, hlast⟩ := hc.sent hp' hmissed
    rcases split_tail m q c.sentAt h with ⟨hdrop, htake⟩ | ⟨hle, hdrop, hdrop', htake'⟩
    · rw [hdrop] at hacc hlast
      rw [htake] at hleads
      refine ⟨?_, hacc, hlast⟩
      cases m with
      | newState u => exact hleads.tail
      | newLogItem i => exact hleads
    · cases m with
      | newState u => exact absurd (hlt hp' rfl) (Nat.not_lt_of_le hle)
      | newLogItem i =>
        rw [hdrop] at hacc hlast
        show LeadsTo _ _ (states (q.take (c.sentAt - (h + 1)))) ∧ Accepted _ _ (states (q.drop (c.sentAt - (h + 1)))) ∧
          (states (q.drop (c.sentAt - (h + 1)))).getLastD c.view = st
        rw [hdrop', htake']
        exact ⟨leadsTo_nil _, hacc, hlast⟩
  · obtain ⟨hmissed, hlt⟩ := hml hmissed
    have hold := hc.later hp' hmissed i hi
    show i ∈ c.shown ∨ i ∈ c.pipe ∨ i ∈ logs c.channel ∨ i ∈ logs (q.drop (c.snapAt - (h + 1)))
    rcases split_tail m q c.snapAt h with ⟨hdrop, -⟩ | ⟨hle, hdrop, hdrop', -⟩
    · rwa [hdrop] at hold
    · cases m with
      | newState u => rwa [hdrop, logs_cons_state, ← hdrop'] at hold
      | newLogItem i => exact absurd (hlt hp' rfl) (Nat.not_lt_of_le hle)

/-- A call of the callback is made. -/
theorem ClientInv.receive {m : Message ι} {l : List (Message ι)} (hc : ClientInv q h st c) (hl : c.channel = m :: l) :
    ClientInv q h st ({ c with channel := l }.receive m) := by
  have hphase : ({ c with channel := l }.receive m).phase = c.phase := by cases m <;> rfl
  have hview : ({ c with channel := l }.receive m).view = c.view := by
    unfold Client.view
    rw [hl]
    cases m <;> rfl
  have hopen : ¬(c.phase = .unbound ∨ c.phase = .snapped) := fun hp => by
    have := (hc.fresh hp).1
    rw [hl] at this
    cases this
  have hlogs : ∀ i, (i ∈ c.shown ∨ i ∈ c.pipe ∨ i ∈ logs c.channel) →
      i ∈ ({ c with channel := l }.receive m).shown ∨ i ∈ c.pipe ∨ i ∈ logs l := by
    intro i hi
    rw [hl] at hi
    cases m with
    | newState u => exact hi
    | newLogItem j =>
      rw [logs_cons_log, List.mem_cons] at hi
      rcases hi with hi | hi | rfl | hi
      · exact .inl (List.mem_append_left _ hi)
      · exact .inr (.inl hi)
      · exact .inl (List.mem_append_right _ (List.mem_singleton_self _))
      · exact .inr (.inr hi)
  have hfields : ({ c with channel := l }.receive m).pipe = c.pipe ∧ ({ c with channel := l }.receive m).channel = l ∧
      ({ c with channel := l }.receive m).since = c.since ∧ ({ c with channel := l }.receive m).snapAt = c.snapAt ∧
      ({ c with channel := l }.receive m).sentAt = c.sentAt ∧ ({ c with channel := l }.receive m).missedLog = c.missedLog ∧
      ({ c with channel := l }.receive m).missedState = c.missedState := by
    cases m <;> exact ⟨rfl, rfl, rfl, rfl, rfl, rfl, rfl⟩
  obtain ⟨hpipe, hchannel, hsince, hsnap, hsent, hml, hms⟩ := hfields
  refine { fresh := fun hp => ?_, snapAt := fun hp => ?_, sentAt := fun hp => ?_, sent := fun hp hm => ?_
           registered := fun hp hm => ?_, later := fun hp hm i hi => ?_, told := fun hp hm i hi => ?_ }
  · rw [hphase] at hp
    exact absurd hp hopen
  · rw [hphase] at hp
    rw [hsnap]
    exact hc.snapAt hp
  · rw [hphase] at hp
    rw [hsent]
    exact hc.sentAt hp
  · rw [hphase] at hp
    rw [hms] at hm
    rw [hview, hsent]
    exact hc.sent hp hm
  · rw [hphase] at hp
    rw [hms] at hm
    rw [hview]
    exact hc.registered hp hm
  · rw [hphase] at hp
    rw [hml] at hm
    rw [hsince] at hi
    rw [hpipe, hchannel, hsnap]
    have := hc.later hp hm i hi
    have := hlogs i
    tauto
  · rw [hphase] at hp
    rw [hml] at hm
    rw [hsince] at hi
    rw [hpipe, hchannel]
    have := hc.told hp hm i hi
    have := hlogs i
    tauto

/-- The status is sent, which is the last one that was posted. -/
theorem ClientInv.send (hc : ClientInv q h st c) (hp : c.phase = .snapped) (hleads : LeadsTo ignores st (states q)) :
    ClientInv q h st
      { c with phase := .sent, channel := c.channel ++ [.newState st], sentAt := h + q.length } := by
  obtain ⟨hchannel, hlevel⟩ := hc.fresh (.inr hp)
  have hview : Client.view { c with phase := .sent, channel := c.channel ++ [.newState st], sentAt := h + q.length } = st := by
    unfold Client.view
    rw [hchannel]
    refine take_of_not ?_
    unfold VpnStatus.ignores
    rw [hlevel]
    rfl
  have hat : h + q.length - h = q.length := by omega
  refine { fresh := fun hp' => ?_, snapAt := fun _ => hc.snapAt (by rw [hp]; decide), sentAt := fun _ => Nat.le_refl _
           sent := fun _ _ => ?_, registered := fun hp' => ?_, later := fun _ hm i hi => ?_, told := fun hp' => ?_ }
  · rcases hp' with hp' | hp' <;> cases hp'
  · rw [hview, hat, List.take_length, List.drop_length]
    exact ⟨hleads, trivial, rfl⟩
  · cases hp'
  · have := hc.later (.inl hp) hm i hi
    show i ∈ c.shown ∨ i ∈ c.pipe ∨ i ∈ logs (c.channel ++ [.newState st]) ∨ _
    rw [logs_append]
    simpa using this
  · cases hp'

/-- The callback is registered. -/
theorem ClientInv.register (hc : ClientInv q h st c) (hp : c.phase = .sent) :
    ClientInv q h st { c with phase := .registered } := by
  refine { fresh := fun hp' => ?_, snapAt := fun _ => hc.snapAt (by rw [hp]; decide), sentAt := fun hp' => ?_
           sent := fun hp' => ?_, registered := fun _ hm => ?_, later := fun hp' => ?_, told := fun _ hm i hi => ?_ }
  · rcases hp' with hp' | hp' <;> cases hp'
  · cases hp'
  · cases hp'
  · obtain ⟨hleads, hacc, hlast⟩ := hc.sent hp hm
    show (states q).foldl (take ignores) c.view = st
    -- The earlier messages lead up to the status that was sent, and the later ones start there.
    rw [← List.take_append_drop (c.sentAt - h) q, states_append, List.foldl_append, hleads.foldl,
      foldl_of_accepted hacc, hlast]
  · rcases hp' with hp' | hp' <;> cases hp'
  · have := hc.later (.inr hp) hm i hi
    rcases this with hi | hi | hi | hi
    · exact .inl hi
    · exact .inr (.inl hi)
    · exact .inr (.inr (.inl hi))
    · refine .inr (.inr (.inr ?_))
      obtain ⟨m, hm, hlog⟩ := List.mem_filterMap.mp hi
      exact List.mem_filterMap.mpr ⟨m, List.mem_of_mem_drop hm, hlog⟩

/-- One log is read. -/
theorem ClientInv.readLog {l : List ι} (hc : ClientInv q h st c) (hp : c.phase = .registered) (hl : c.pipe = i :: l) :
    ClientInv q h st { c with pipe := l, shown := c.shown ++ [i] } := by
  refine { fresh := hc.fresh, snapAt := hc.snapAt, sentAt := hc.sentAt, sent := hc.sent, registered := hc.registered
           later := fun hp' => ?_, told := fun _ hm j hj => ?_ }
  · rw [show c.phase = _ from hp] at hp'
    rcases hp' with hp' | hp' <;> cases hp'
  · have := hc.told hp hm j hj
    rw [hl] at this
    show j ∈ c.shown ++ [i] ∨ j ∈ l ∨ _
    simp only [List.mem_cons, List.mem_append, List.not_mem_nil, or_false] at this ⊢
    tauto

/-- The buffer is read. -/
theorem ClientInv.snap (hc : ClientInv q h st c) (hp : c.phase = .unbound) (logbuffer : List ι) :
    ClientInv q h st { c with
      phase := .snapped, pipe := logbuffer, since := logbuffer, snapAt := h + q.length } where
  fresh _ := hc.fresh (.inl hp)
  snapAt _ := Nat.le_refl _
  sentAt hp' := by cases hp'
  sent hp' := by cases hp'
  registered hp' := by cases hp'
  later _ _ _ hi := .inr (.inl hi)
  told hp' := by cases hp'

end Steps

/-! ### Runs -/

/-- What every step keeps. -/
structure Inv (s : State κ ι) : Prop where
  created : s.created = true → s.mLastUpdateMessage = some s.status
  notCreated : s.created = false → s.queue = [] ∧ ∀ k, (s.clients k).phase = .unbound
  leads : LeadsTo ignores s.status (states s.queue)
  clients : ∀ k, ClientInv s.queue s.handled s.status (s.clients k)

section Run
variable {s t : State κ ι} {ignoring : UpdateMessage → ι}

theorem Inv.set [DecidableEq κ] {k : κ} {c : Client ι} (hi : Inv s) (hcreated : s.created = true)
    (hc : ClientInv s.queue s.handled s.status c) : Inv (s.set k c) where
  created := hi.created
  notCreated h := by
    rw [show s.created = false from h] at hcreated
    cases hcreated
  leads := hi.leads
  clients k' := by
    show ClientInv _ _ _ (Function.update s.clients k c k')
    by_cases hk : k' = k
    · rw [hk, Function.update_self]
      exact hc
    · rw [Function.update_of_ne hk]
      exact hi.clients k'

/-- A log of the service is posted, or only put into the buffer. -/
theorem Inv.newLogItem (hi : Inv s) (i : ι) : Inv (newLogItem s i) := by
  cases hcreated : s.created with
  | false =>
    have heq : OpenVPNStatusService.newLogItem s i = { s with logbuffer := VpnStatus.newLogItem s.logbuffer i } :=
      if_neg (by rw [hcreated]; decide)
    rw [heq]
    exact { created := fun h => absurd (hcreated.symm.trans h) (by decide), notCreated := fun _ => hi.notCreated hcreated
            leads := hi.leads, clients := hi.clients }
  | true =>
    have heq : OpenVPNStatusService.newLogItem s i =
        { s with logbuffer := VpnStatus.newLogItem s.logbuffer i }.post (.newLogItem i) := if_pos hcreated
    rw [heq]
    refine { created := fun _ => hi.created hcreated, notCreated := fun h => absurd (hcreated.symm.trans h) (by decide)
             leads := ?_, clients := fun k => (hi.clients k).post_log i }
    show LeadsTo ignores s.status (states (s.queue ++ [.newLogItem i]))
    rw [states_append]
    exact (List.append_nil _).symm ▸ hi.leads

theorem leadsTo_append {a u : UpdateMessage} {l : List UpdateMessage} (h : LeadsTo ignores a l) (hu : ignores a u = false) :
    LeadsTo ignores u (l ++ [u]) := by
  obtain ⟨b, hb, hlast⟩ := h
  cases l with
  | nil => exact ⟨a, ⟨hu, trivial⟩, rfl⟩
  | cons v l =>
    refine ⟨b, accepted_append_singleton hb ?_, List.getLastD_concat⟩
    rw [List.getLastD_cons] at hlast ⊢
    rwa [hlast]

/-- An update that the service takes is posted. -/
theorem Inv.updateState {u : UpdateMessage} (hi : Inv s) (hcreated : s.created = true) (hu : ignores s.status u = false) :
    Inv ({ s with status := u }.updateState u) where
  created _ := rfl
  notCreated h := absurd (hcreated.symm.trans h) (by decide)
  leads := by
    show LeadsTo ignores u (states (s.queue ++ [.newState u]))
    rw [states_append]
    exact leadsTo_append hi.leads hu
  clients k := (hi.clients k).post_state hu

theorem Inv.updateStateString (hi : Inv s) (u : UpdateMessage) : Inv (updateStateString ignoring s u) := by
  cases hu : ignores s.status u with
  | true =>
    rw [OpenVPNStatusService.updateStateString, if_pos hu]
    exact hi.newLogItem _
  | false =>
    have hnot : ¬ignores s.status u = true := by rw [hu]; decide
    cases hcreated : s.created with
    | true =>
      have heq : OpenVPNStatusService.updateStateString ignoring s u = { s with status := u }.updateState u :=
        (if_neg hnot).trans (if_pos hcreated)
      rw [heq]
      exact hi.updateState hcreated hu
    | false =>
      have heq : OpenVPNStatusService.updateStateString ignoring s u = { s with status := u } :=
        (if_neg hnot).trans (if_neg (by rw [hcreated]; decide))
      obtain ⟨hqueue, hphase⟩ := hi.notCreated hcreated
      rw [heq]
      refine { created := fun h => absurd (hcreated.symm.trans h) (by decide), notCreated := fun _ => ⟨hqueue, hphase⟩
               leads := ?_, clients := fun k => ?_ }
      · show LeadsTo ignores u (states s.queue)
        rw [hqueue]
        exact leadsTo_nil u
      · have hc := hi.clients k
        have hun := hphase k
        exact { fresh := hc.fresh, snapAt := hc.snapAt, sentAt := hc.sentAt
                sent := fun hp => by rw [hun] at hp; cases hp
                registered := fun hp => by rw [hun] at hp; cases hp
                later := hc.later, told := hc.told }

/-- The service becomes a listener, and is told the status at once. -/
theorem Inv.onCreate (hi : Inv s) (hcreated : s.created = false) (hlevel : ignores (noProcess 0) s.status = false) :
    Inv ({ s with created := true }.updateState s.status) := by
  obtain ⟨hqueue, hphase⟩ := hi.notCreated hcreated
  refine { created := fun _ => rfl, notCreated := (nomatch ·), leads := ?_, clients := fun k => ?_ }
  · show LeadsTo ignores s.status (states (s.queue ++ [.newState s.status]))
    rw [hqueue]
    exact ⟨noProcess 0, ⟨hlevel, trivial⟩, rfl⟩
  · have hc := hi.clients k
    have hun := hphase k
    show ClientInv (s.queue ++ [.newState s.status]) s.handled s.status (s.clients k)
    exact { fresh := hc.fresh, snapAt := fun hp => absurd hun hp
            sentAt := fun hp => by rw [hun] at hp; cases hp
            sent := fun hp => by rw [hun] at hp; cases hp
            registered := fun hp => by rw [hun] at hp; cases hp
            later := fun hp => by rw [hun] at hp; rcases hp with hp | hp <;> cases hp
            told := fun hp => by rw [hun] at hp; cases hp }

theorem Inv.handleMessage {m : Message ι} {queue : List (Message ι)} (hi : Inv s) (hq : s.queue = m :: queue) :
    Inv { s with queue := queue, handled := s.handled + 1, clients := fun k => (s.clients k).broadcast s.handled m } := by
  have hleads := hi.leads
  rw [hq] at hleads
  refine { created := hi.created, notCreated := fun h => ?_, leads := ?_, clients := fun k => ?_ }
  · have := (hi.notCreated h).1
    rw [hq] at this
    cases this
  · cases m with
    | newState u => exact hleads.tail
    | newLogItem i => exact hleads
  · have hc := hi.clients k
    rw [hq] at hc
    by_cases hp : (s.clients k).phase = .registered
    · exact hc.broadcast_registered hp
    · exact hc.broadcast_unregistered hp

theorem created_of_phase {k : κ} (hi : Inv s) (hp : (s.clients k).phase ≠ .unbound) : s.created = true := by
  cases hcreated : s.created with
  | true => rfl
  | false => exact absurd ((hi.notCreated hcreated).2 k) hp

theorem Inv.step [DecidableEq κ] {e : Event κ ι} (hi : Inv s) (h : step ignoring s e = some t) : Inv t := by
  cases e with
  | onCreate =>
    simp only [OpenVPNStatusService.step] at h
    split at h
    case isTrue => cases h
    case isFalse hcreated =>
      rw [← Option.some.inj h]
      exact hi.onCreate (by simpa using hcreated) rfl
  | updateStateString u =>
    rw [← Option.some.inj h]
    exact hi.updateStateString u
  | newLogItem i =>
    rw [← Option.some.inj h]
    exact hi.newLogItem i
  | clearLog i =>
    rw [← Option.some.inj h]
    have hcleared : Inv { s with logbuffer := [] } :=
      { created := hi.created, notCreated := hi.notCreated, leads := hi.leads, clients := hi.clients }
    exact hcleared.newLogItem i
  | handleMessage =>
    simp only [OpenVPNStatusService.step] at h
    split at h
    case h_1 => cases h
    case h_2 m queue hq =>
      rw [← Option.some.inj h]
      exact hi.handleMessage hq
  | getlogbuffer k =>
    simp only [OpenVPNStatusService.step] at h
    split at h
    case isFalse => cases h
    case isTrue hp =>
      rw [← Option.some.inj h]
      exact hi.set hp.1 ((hi.clients k).snap hp.2 s.logbuffer)
  | sendUpdate k =>
    simp only [OpenVPNStatusService.step] at h
    split at h
    case isFalse => cases h
    case isTrue hp =>
      have hcreated := created_of_phase hi (k := k) (by rw [hp]; decide)
      rw [← Option.some.inj h, hi.created hcreated]
      exact hi.set hcreated ((hi.clients k).send hp hi.leads)
  | register k =>
    simp only [OpenVPNStatusService.step] at h
    split at h
    case isFalse => cases h
    case isTrue hp =>
      rw [← Option.some.inj h]
      exact hi.set (created_of_phase hi (k := k) (by rw [hp]; decide)) ((hi.clients k).register hp)
  | readLog k =>
    simp only [OpenVPNStatusService.step] at h
    split at h
    case h_1 i l hp hl =>
      rw [← Option.some.inj h]
      exact hi.set (created_of_phase hi (k := k) (by rw [hp]; decide)) ((hi.clients k).readLog hp hl)
    case h_2 => cases h
  | callback k =>
    simp only [OpenVPNStatusService.step] at h
    split at h
    case h_1 => cases h
    case h_2 m l hl =>
      have hphase : (s.clients k).phase ≠ .unbound := fun hp => by
        have := ((hi.clients k).fresh (.inl hp)).1
        rw [hl] at this
        cases this
      rw [← Option.some.inj h]
      exact hi.set (created_of_phase hi hphase) ((hi.clients k).receive hl)

theorem inv_reachable [DecidableEq κ] {stateNoprocess : Int}
    (h : StepSystem.Reachable (system ignoring stateNoprocess) StepSystem.Any s) : Inv s := by
  refine h.inv (fun s h0 => ?_) fun s e t hi _ hs => hi.step hs
  obtain ⟨hstatus, hcreated, -, hqueue, hhandled, hclients⟩ := h0
  refine { created := fun h => absurd (hcreated.symm.trans h) (by decide), notCreated := fun _ => ⟨hqueue, fun k => ?_⟩
           leads := ?_, clients := fun k => ?_ }
  · rw [hclients]
  · rw [hqueue]
    exact leadsTo_nil _
  · rw [hclients]
    exact { fresh := fun _ => ⟨rfl, rfl⟩, snapAt := fun hp => absurd rfl hp, sentAt := (nomatch ·), sent := (nomatch ·)
            registered := (nomatch ·), told := (nomatch ·), later := fun hp => by rcases hp with hp | hp <;> cases hp }

/-- The state in which the processes start, with one client. -/
def start : State Unit String where
  status := noProcess 0
  clients _ := { status := noProcess 0 }

/-- A client that misses the one update between its own two calls stays at the status before: it takes the connection
    for open while the service waits for the server. -/
example : ∃ s, (system (·.state) 0).run StepSystem.Any start
    [.onCreate, .updateStateString ⟨"CONNECTED", "", 2, .connected, none⟩, .handleMessage, .handleMessage,
     .getlogbuffer (), .sendUpdate (), .updateStateString ⟨"RECONNECTING", "", 3, .connectingNoServerReplyYet, none⟩,
     .handleMessage, .register (), .updateStateString ⟨"WAIT", "", 4, .connectingNoServerReplyYet, none⟩,
     .handleMessage, .callback (), .callback ()] = some s ∧
    s.queue = [] ∧ (s.clients ()).channel = [] ∧ (s.clients ()).status.level = .connected ∧
      s.status.level = .connectingNoServerReplyYet := ⟨_, rfl, rfl, rfl, rfl, rfl⟩

end Run
end OpenVPNStatusService
end NicVpn

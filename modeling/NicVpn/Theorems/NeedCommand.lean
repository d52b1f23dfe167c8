import NicVpn.OpenVpnManagementThread

/-! The answers of the management thread. Each question gets one line, except that an `OPENTUN` that sends its
    descriptor is answered where it is sent and again at the common end. -/

namespace NicVpn
namespace OpenVpnManagementThread

/-- A question of a known kind. -/
structure Question where
  argument : List Char
  needed : Needed
  extra : List Char
  named : quoted argument = some needed.name
  told : OpenVpnManagementThread.extra argument = some extra

/-- The line answers the question, and carries a descriptor just when it says that the tun is open. -/
def Answers (q : Question) (line : Line) : Prop :=
  ∃ status, line.text = needok q.needed.name status ∧ (line.fd.isSome = true ↔ q.needed = .opentun ∧ status = ok)

/-- The lines that a question wrote are its one answer. -/
def OneAnswer (q : Question) (lines : List Line) : Prop := ∃ line, lines = [line] ∧ Answers q line

section
variable {σ : Type} (S : Service σ)

/-- The lines that each of the questions writes; after an unchecked exception there are none. -/
def answers : Thread σ → List Question → List (List Line)
  | _, [] => []
  | t, q :: qs =>
    match t.processNeedCommand S q.argument with
    | some (t', lines) => lines :: answers t' qs
    | none => [] :: qs.map fun _ => []

/-- No call throws, and the question sends no descriptor. -/
def Answered (t : Thread σ) (q : Question) : Prop :=
  match q.needed with
  | .opentun =>
    q.extra = "tun".toList →
      match S.openTun t.service with
      | (.threw, _) => False
      | (.null, _) => True
      | (.descriptor _, s) => S.setInt s = false
  | .protectfd => (S.protectFileDescriptor t.mFDList.head? t.service).isSome
  | .persistTunAction => True
  | .dnsserver | .dns6server | .dnsdomain | .route | .route6 | .ifconfig | .ifconfig6 =>
    (push S q.needed q.extra t.service).isSome

/-- Each question is answered, in the state that the ones before it left. -/
def AllAnswered : Thread σ → List Question → Prop
  | _, [] => True
  | t, q :: qs =>
    Answered S t q ∧ ∀ t' lines, t.processNeedCommand S q.argument = some (t', lines) → AllAnswered t' qs

end

theorem ofName?_name (needed : Needed) : Needed.ofName? needed.name = some needed := by
  cases needed <;> decide

section
variable {σ : Type} {S : Service σ} {t : Thread σ} {q : Question}

theorem processNeedCommand_eq (t : Thread σ) (q : Question) :
    t.processNeedCommand S q.argument =
      (t.status S q.needed q.extra).map fun r =>
        (r.2.1, r.2.2 ++ [r.2.1.managmentCommand (needok q.needed.name r.1)]) := by
  simp only [Thread.processNeedCommand, q.named, q.told, Option.bind_eq_bind, Option.bind_some, ofName?_name]
  cases t.status S q.needed q.extra with
  | none => rfl
  | some r => rfl

theorem status_opentun_null {s : σ} (h : S.openTun t.service = (.null, s)) :
    t.status S .opentun "tun".toList = some (cancel, { t with service := s }, []) := by
  simp only [Thread.status, Thread.sendTunFD, ne_eq, not_true_eq_false, ↓reduceIte, h]
  rfl

theorem status_opentun_setInt {fd : Nat} {s : σ} (h : S.openTun t.service = (.descriptor fd, s)) (hset : S.setInt s = false) :
    t.status S .opentun "tun".toList = some (cancel, { t with service := s }, []) := by
  simp only [Thread.status, Thread.sendTunFD, ne_eq, not_true_eq_false, ↓reduceIte, h, hset, Bool.false_eq_true]
  rfl

/-- A question that is answered writes nothing before the common end, and `OPENTUN` is cancelled there. -/
theorem status_of_answered (h : Answered S t q) (hfd : t.fdsForSend = none) :
    ∃ status t', t.status S q.needed q.extra = some (status, t', []) ∧ t'.fdsForSend = none ∧
      (q.needed = .opentun → status = cancel) := by
  obtain ⟨argument, needed, extra, named, told⟩ := q
  have hpush : (push S needed extra t.service).isSome →
      ∃ status t', (push S needed extra t.service >>= fun s => some (ok, { t with service := s }, ([] : List Line))) =
        some (status, t', []) ∧ t'.fdsForSend = none := by
    intro hsome
    obtain ⟨s, hs⟩ := Option.isSome_iff_exists.mp hsome
    exact ⟨ok, { t with service := s }, by rw [hs]; rfl, hfd⟩
  cases needed with
  | opentun =>
    simp only [Answered] at h
    by_cases htun : extra = "tun".toList
    · subst htun
      specialize h rfl
      split at h
      · exact h.elim
      · rename_i s hopen
        exact ⟨cancel, { t with service := s }, status_opentun_null hopen, hfd, fun _ => rfl⟩
      · rename_i fd s hopen
        exact ⟨cancel, { t with service := s }, status_opentun_setInt hopen h, hfd, fun _ => rfl⟩
    · simp only [Thread.status, Thread.sendTunFD, ne_eq, htun, not_false_eq_true, ↓reduceIte]
      exact ⟨cancel, t, rfl, hfd, fun _ => rfl⟩
  | protectfd =>
    obtain ⟨s, hs⟩ := Option.isSome_iff_exists.mp h
    exact ⟨ok, { t with service := s, mFDList := t.mFDList.tail }, by simp only [Thread.status, hs]; rfl, hfd, nofun⟩
  | persistTunAction => exact ⟨S.getTunReopenStatus t.service, t, rfl, hfd, nofun⟩
  | dnsserver | dns6server | dnsdomain | route | route6 | ifconfig | ifconfig6 =>
    obtain ⟨status, t', hstatus, hfd'⟩ := hpush h
    exact ⟨status, t', hstatus, hfd', nofun⟩

/-- Otherwise the thread ends, or a line is written before the common end. -/
theorem answered_of_status (h : ∃ status t', t.status S q.needed q.extra = some (status, t', [])) : Answered S t q := by
  obtain ⟨argument, needed, extra, named, told⟩ := q
  obtain ⟨status, t', h⟩ := h
  have hpush : ∀ {r : Option (List Char × Thread σ × List Line)},
      (push S needed extra t.service >>= fun s => some (ok, { t with service := s }, ([] : List Line))) = r → r.isSome →
        (push S needed extra t.service).isSome := by
    intro r hr hsome
    cases hp : push S needed extra t.service with
    | none => rw [hp] at hr; subst hr; exact hsome
    | some s => rfl
  cases needed with
  | opentun =>
    intro htun
    replace htun : extra = "tun".toList := htun
    simp only [Thread.status, Thread.sendTunFD, htun, ne_eq, not_true_eq_false, ↓reduceIte] at h
    split
    · rename_i hopen
      rw [hopen] at h
      cases h
    · trivial
    · rename_i fd s hopen
      rw [hopen] at h
      cases hset : S.setInt s with
      | false => rfl
      | true => simp [hset] at h
  | protectfd =>
    simp only [Thread.status] at h
    simp only [Answered]
    cases hs : S.protectFileDescriptor t.mFDList.head? t.service with
    | none => rw [hs] at h; cases h
    | some s => rfl
  | persistTunAction => trivial
  | dnsserver | dns6server | dnsdomain | route | route6 | ifconfig | ifconfig6 => exact hpush h rfl

/-! ### One step -/

/-- An answered question writes its answer at the common end. -/
theorem oneAnswer_of_answered (h : Answered S t q) (hfd : t.fdsForSend = none) :
    ∃ t' lines, t.processNeedCommand S q.argument = some (t', lines) ∧ t'.fdsForSend = none ∧ OneAnswer q lines := by
  obtain ⟨status, t', hstatus, hfd', hcancel⟩ := status_of_answered h hfd
  refine ⟨t', [t'.managmentCommand (needok q.needed.name status)], ?_, hfd', _, rfl, status, rfl, ?_⟩
  · rw [processNeedCommand_eq, hstatus]
    rfl
  · constructor
    · intro hsome
      simp only [Thread.managmentCommand, hfd'] at hsome
      cases hsome
    · rintro ⟨hopen, rfl⟩
      exact absurd (hcancel hopen) (by decide)

/-- Only an answered question writes one line. -/
theorem answered_of_oneAnswer {t' : Thread σ} {lines : List Line}
    (h : t.processNeedCommand S q.argument = some (t', lines)) (hone : OneAnswer q lines) : Answered S t q := by
  rw [processNeedCommand_eq] at h
  obtain ⟨⟨status, t'', before⟩, hstatus, heq⟩ := Option.map_eq_some_iff.mp h
  obtain ⟨rfl, rfl⟩ := Prod.mk.inj heq
  obtain ⟨line, hline, -⟩ := hone
  obtain rfl : before = [] := by
    have hlen := congrArg List.length hline
    simp only [List.length_append, List.length_singleton, Nat.add_eq_right, List.length_eq_zero_iff] at hlen
    exact hlen
  exact answered_of_status ⟨status, t'', hstatus⟩

/-! ### Every run -/

theorem forall₂_answers_iff (hfd : t.fdsForSend = none) (qs : List Question) :
    List.Forall₂ OneAnswer qs (answers S t qs) ↔ AllAnswered S t qs := by
  induction qs generalizing t with
  | nil => exact ⟨fun _ => trivial, fun _ => .nil⟩
  | cons q qs ih =>
    simp only [answers, AllAnswered]
    constructor
    · intro h
      split at h
      · rename_i t' lines hstep
        obtain ⟨hone, hrest⟩ := List.forall₂_cons.mp h
        have hq := answered_of_oneAnswer hstep hone
        refine ⟨hq, fun t'' lines' hstep' => ?_⟩
        obtain ⟨u, ls, hu, hfd', -⟩ := oneAnswer_of_answered hq hfd
        obtain ⟨rfl, rfl⟩ := Prod.mk.inj (Option.some.inj (hstep.symm.trans hstep'))
        obtain ⟨rfl, rfl⟩ := Prod.mk.inj (Option.some.inj (hstep.symm.trans hu))
        exact (ih hfd').mp hrest
      · obtain ⟨⟨line, hline, -⟩, -⟩ := List.forall₂_cons.mp h
        cases hline
    · rintro ⟨hq, hrest⟩
      obtain ⟨t', lines, hstep, hfd', hone⟩ := oneAnswer_of_answered hq hfd
      rw [hstep]
      exact .cons hone ((ih hfd').mpr (hrest t' lines hstep))

end

/-- The thread before the first question. -/
def Thread.initial {σ : Type} (s : σ) (fds : List Nat) : Thread σ := { service := s, mFDList := fds, fdsForSend := none }

/-- Each question gets one line of its kind, in order, and the descriptor of the tun goes with the line that says
    it is open and no other, just when no question throws or sends a descriptor. -/
theorem one_answer_iff {σ : Type} (S : Service σ) (s : σ) (fds : List Nat) (qs : List Question) :
    List.Forall₂ OneAnswer qs (answers S (Thread.initial s fds) qs) ↔ AllAnswered S (Thread.initial s fds) qs :=
  forall₂_answers_iff rfl qs

/-- A service whose tun can be opened. -/
def opening : Service Unit where
  protectFileDescriptor _ := some
  addDNS _ := some
  setDomain _ := some
  addRoute _ _ _ _ := some
  addRoutev6 _ _ := some
  setLocalIP _ _ _ _ := some
  setMtu _ := some
  setLocalIPv6 _ := some
  getTunReopenStatus _ := "OPEN_BEFORE_CLOSE".toList
  openTun s := (.descriptor 42, s)
  setInt _ := true
  close _ := true

def openTunQuestion : Question where
  argument := "Need 'OPENTUN' confirmation MSG:tun".toList
  needed := .opentun
  extra := "tun".toList
  named := by decide
  told := by decide

/-- The tun is answered for twice, the second time without its descriptor. -/
theorem opentun_answered_twice :
    answers opening (Thread.initial () []) [openTunQuestion] =
        [[{ text := needok "OPENTUN".toList ok, fd := some 42 }, { text := needok "OPENTUN".toList ok, fd := none }]] ∧
      ¬List.Forall₂ OneAnswer [openTunQuestion] (answers opening (Thread.initial () []) [openTunQuestion]) := by
  have hlines : answers opening (Thread.initial () []) [openTunQuestion] =
      [[{ text := needok "OPENTUN".toList ok, fd := some 42 }, { text := needok "OPENTUN".toList ok, fd := none }]] := by
    decide
  refine ⟨hlines, ?_⟩
  rw [hlines]
  intro h
  obtain ⟨⟨line, hline, -⟩, -⟩ := List.forall₂_cons.mp h
  cases hline

end OpenVpnManagementThread
end NicVpn

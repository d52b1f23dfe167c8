import NicVpn.LogFileHandler
import Mathlib.Data.List.Infix
import Mathlib.Data.List.Nodup

/-! The log over restarts. The buffer never grows beyond its bound. The items of the previous run are put at the front
    one by one, so they stand in the wrong order as soon as there are two; and an item that was logged while a trim was
    waiting is written by the trim and again for its own message. Where neither happens, the order is right and the file
    has every item once. -/

namespace NicVpn
namespace LogFileHandler
open StepSystem

/-! ### Steps -/

/-- What a step of the handler can be. -/
theorem handleMessage_cases {s t : State} (h : handleMessage s = some t) :
    (s.handler = .created none ∧ t = { s with handler := .ready [] }) ∨
      (∃ items, s.handler = .created (some items) ∧ t = { s with handler := .reading items 0 }) ∨
      (∃ items itemsRead, s.handler = .reading items itemsRead ∧ t = readCacheContents s items itemsRead) ∨
      ∃ logFile m queue, s.handler = .ready logFile ∧ s.queue = m :: queue ∧
        t = writeLog { s with queue := queue } logFile m := by
  unfold handleMessage at h
  split at h
  · rename_i hhandler
    cases h
    exact .inl ⟨hhandler, rfl⟩
  · rename_i items hhandler
    cases h
    exact .inr (.inl ⟨items, hhandler, rfl⟩)
  · rename_i items itemsRead hhandler
    cases h
    exact .inr (.inr (.inl ⟨items, itemsRead, hhandler, rfl⟩))
  · rename_i logFile hhandler
    split at h
    · cases h
    · rename_i m queue hqueue
      cases h
      exact .inr (.inr (.inr ⟨logFile, m, queue, hhandler, hqueue, rfl⟩))

/-! ### The bound of the buffer -/

theorem length_trimBuffer_le (s : State) : (trimBuffer s).logbuffer.length ≤ maxLogEntries + maxLogEntries / 2 := by
  unfold trimBuffer
  split
  · simp only [sendMessage, List.length_drop, maxLogEntries]
    omega
  · rename_i h
    exact Nat.not_lt.mp h

theorem length_newLogItem_le (s : State) (logItem : LogItem) (cachedLine : Bool) :
    (newLogItem s logItem cachedLine).logbuffer.length ≤ maxLogEntries + maxLogEntries / 2 := length_trimBuffer_le _

/-- The buffer is within its bound in every run. -/
theorem length_logbuffer_le {cacheFile : Option (List Nat)} {C : State → Event → Prop} {s : State}
    (h : Reachable (system cacheFile) C s) : s.logbuffer.length ≤ maxLogEntries + maxLogEntries / 2 := by
  refine h.inv (fun s (hs : Init cacheFile s) => hs.length) fun s e t hlen _ hstep => ?_
  cases e with
  | newLogItem =>
    cases hstep
    exact length_newLogItem_le _ _ _
  | clearLog =>
    cases hstep
    exact length_newLogItem_le _ _ _
  | flushLog =>
    cases hstep
    exact hlen
  | handleMessage =>
    obtain ⟨-, rfl⟩ | ⟨items, -, rfl⟩ | ⟨items, itemsRead, -, rfl⟩ | ⟨logFile, m, queue, -, -, rfl⟩ :=
      handleMessage_cases hstep
    · exact hlen
    · exact hlen
    · cases items with
      | nil => exact length_newLogItem_le _ _ _
      | cons logItem items =>
        unfold readCacheContents
        dsimp only
        split
        · exact length_newLogItem_le _ _ _
        · exact length_newLogItem_le _ _ _
    · cases m <;> exact hlen

/-! ### Items -/

/-- The items of a cache file. -/
def records (cacheFile : Option (List Nat)) : List LogItem := (cacheFile.getD []).map .cached

/-- The items whose messages wait. -/
def queued (queue : List Message) : List LogItem :=
  queue.filterMap fun m =>
    match m with
    | .logMessage logItem => some logItem
    | _ => none

/-- What the open file holds. -/
def written : Handler → List LogItem
  | .ready logFile => logFile
  | _ => []

/-- What is still to be restored. -/
def unread : Handler → List LogItem
  | .created (some items) => items
  | .reading items _ => items
  | _ => []

theorem queued_append (queue : List Message) (m : Message) : queued (queue ++ [m]) = queued queue ++ queued [m] :=
  List.filterMap_append

def LogItem.restored : LogItem → Bool
  | .cached _ => true
  | .logged _ => false

/-- A step that puts no item in front of a restored one, and that trims the file while no item of the buffer waits to be
    written. -/
def Calm (s : State) : Event → Prop
  | .handleMessage =>
    match s.handler, s.queue with
    | .reading (_ :: _) _, _ =>
      s.logbuffer.length < maxLogEntries + maxLogEntries / 2 → ∀ x ∈ s.logbuffer, x.restored = false
    | .ready _, .trimLogFile :: queue => ∀ x ∈ queued queue, x ∉ s.logbuffer
    | _, _ => True
  | _ => True

instance (s : State) (e : Event) : Decidable (Calm s e) := by
  unfold Calm
  split
  · split <;> infer_instance
  · infer_instance

/-- The restored items come first, in the order of the file. -/
def Ordered (cacheFile : Option (List Nat)) (logbuffer : List LogItem) : Prop :=
  ∃ restored new, logbuffer = restored ++ new ∧ restored.Sublist (records cacheFile) ∧ ∀ x ∈ new, x.restored = false

/-- What stands in the buffer, in the file and in the queue. -/
structure Sound (cacheFile : Option (List Nat)) (s : State) : Prop where
  nodup : s.logbuffer.Nodup
  order : Ordered cacheFile s.logbuffer
  once : (written s.handler ++ queued s.queue).Nodup
  made : ∀ n, .logged n ∈ s.logbuffer ++ (written s.handler ++ queued s.queue) → n < s.made
  unread : ∀ x ∈ unread s.handler, x ∈ records cacheFile

theorem Ordered.drop {cacheFile : Option (List Nat)} {logbuffer : List LogItem} (h : Ordered cacheFile logbuffer)
    (k : Nat) : Ordered cacheFile (logbuffer.drop k) := by
  obtain ⟨restored, new, rfl, hrestored, hnew⟩ := h
  refine ⟨restored.drop k, new.drop (k - restored.length), List.drop_append, ?_, ?_⟩
  · exact (List.drop_sublist k restored).trans hrestored
  · exact fun x hx => hnew x (List.mem_of_mem_drop hx)

section Steps
variable {cacheFile : Option (List Nat)} {s : State}

theorem Sound.sendMessage (h : Sound cacheFile s) {m : Message} (hm : queued [m] = []) :
    Sound cacheFile (sendMessage s m) := by
  have hqueued : queued (s.queue ++ [m]) = queued s.queue := by rw [queued_append, hm, List.append_nil]
  refine ⟨h.nodup, h.order, ?_, ?_, h.unread⟩
  · rw [LogFileHandler.sendMessage, hqueued]
    exact h.once
  · rw [LogFileHandler.sendMessage, hqueued]
    exact h.made

/-- The buffer may lose items at its front. -/
theorem Sound.drop (h : Sound cacheFile s) (k : Nat) : Sound cacheFile { s with logbuffer := s.logbuffer.drop k } where
  nodup := h.nodup.sublist (List.drop_sublist k _)
  order := h.order.drop k
  once := h.once
  made := by
    intro n hn
    refine h.made n (List.mem_append.mpr ?_)
    exact (List.mem_append.mp hn).imp_left List.mem_of_mem_drop
  unread := h.unread

theorem Sound.trimBuffer (h : Sound cacheFile s) : Sound cacheFile (trimBuffer s) := by
  unfold LogFileHandler.trimBuffer
  split
  · exact (h.drop _).sendMessage rfl
  · exact h

theorem log_eq (s : State) : log s =
    LogFileHandler.trimBuffer
      { s with
        logbuffer := s.logbuffer ++ [.logged s.made]
        queue := s.queue ++ [.logMessage (.logged s.made)]
        made := s.made + 1 } := rfl

/-- A new item is in neither the buffer nor the file. -/
theorem Sound.log (h : Sound cacheFile s) : Sound cacheFile (log s) := by
  have hfresh : .logged s.made ∉ s.logbuffer ++ (written s.handler ++ queued s.queue) :=
    fun hmem => Nat.lt_irrefl _ (h.made _ hmem)
  have hqueued : queued (s.queue ++ [.logMessage (.logged s.made)]) = queued s.queue ++ [.logged s.made] :=
    queued_append _ _
  rw [List.mem_append, not_or] at hfresh
  rw [log_eq]
  refine Sound.trimBuffer ⟨?_, ?_, ?_, ?_, h.unread⟩
  · rw [← List.concat_eq_append]
    exact h.nodup.concat hfresh.1
  · obtain ⟨restored, new, hbuffer, hrestored, hnew⟩ := h.order
    refine ⟨restored, new ++ [.logged s.made], ?_, hrestored, ?_⟩
    · rw [hbuffer, List.append_assoc]
    · intro x hx
      rcases List.mem_append.mp hx with hx | hx
      · exact hnew x hx
      · rw [List.mem_singleton.mp hx]
        rfl
  · rw [hqueued, ← List.append_assoc, ← List.concat_eq_append]
    exact h.once.concat hfresh.2
  · intro n hn
    have hmade := h.made n
    rw [hqueued] at hn
    simp only [List.mem_append, List.mem_singleton, LogItem.logged.injEq] at hn hmade
    change n < s.made + 1
    rcases hn with (hn | hn) | hn | hn | hn
    · exact (hmade (.inl hn)).trans (Nat.lt_succ_self _)
    · exact hn ▸ Nat.lt_succ_self _
    · exact (hmade (.inr (.inl hn))).trans (Nat.lt_succ_self _)
    · exact (hmade (.inr (.inr hn))).trans (Nat.lt_succ_self _)
    · exact hn ▸ Nat.lt_succ_self _

/-- An item that is put in front of a full buffer is gone with the next ones. -/
theorem newLogItem_of_full {n : Nat} (hlen : maxLogEntries + maxLogEntries / 2 ≤ s.logbuffer.length) :
    newLogItem s (.cached n) true =
      LogFileHandler.sendMessage { s with logbuffer := s.logbuffer.drop (s.logbuffer.length - maxLogEntries) }
        .trimLogFile := by
  have hge : maxLogEntries ≤ s.logbuffer.length := Nat.le_trans (Nat.le_add_right _ _) hlen
  have hfull : maxLogEntries + maxLogEntries / 2 < (LogItem.cached n :: s.logbuffer).length := Nat.lt_succ_of_le hlen
  rw [newLogItem, if_pos rfl, LogFileHandler.trimBuffer, if_pos hfull, List.length_cons, Nat.sub_add_comm hge,
    List.drop_succ_cons]

/-- A full buffer loses the item that is restored at once. -/
theorem Sound.restore (h : Sound cacheFile s) {n : Nat} (hn : .cached n ∈ records cacheFile)
    (hcalm : s.logbuffer.length < maxLogEntries + maxLogEntries / 2 → ∀ x ∈ s.logbuffer, x.restored = false) :
    Sound cacheFile (newLogItem s (.cached n) true) := by
  rcases Nat.lt_or_ge s.logbuffer.length (maxLogEntries + maxLogEntries / 2) with hlen | hlen
  · have hlogged := hcalm hlen
    refine Sound.trimBuffer ⟨?_, ?_, h.once, ?_, h.unread⟩
    · exact List.nodup_cons.mpr ⟨fun hmem => Bool.noConfusion (hlogged _ hmem), h.nodup⟩
    · exact ⟨[.cached n], s.logbuffer, rfl, List.singleton_sublist.mpr hn, hlogged⟩
    · intro k hk
      refine h.made k ?_
      rcases List.mem_cons.mp hk with hk | hk
      · cases hk
      · exact hk
  · rw [newLogItem_of_full hlen]
    exact (h.drop _).sendMessage rfl

theorem Sound.withHandler (h : Sound cacheFile s) {handler : Handler} (hwritten : written handler = written s.handler)
    (hunread : ∀ x ∈ LogFileHandler.unread handler, x ∈ records cacheFile) :
    Sound cacheFile { s with handler := handler } where
  nodup := h.nodup
  order := h.order
  once := by
    rw [hwritten]
    exact h.once
  made := by
    rw [hwritten]
    exact h.made
  unread := hunread

theorem handler_trimBuffer (s : State) : (trimBuffer s).handler = s.handler := by
  unfold trimBuffer
  split
  · simp only [sendMessage]
  · rfl

theorem handler_newLogItem (s : State) (logItem : LogItem) (cachedLine : Bool) :
    (newLogItem s logItem cachedLine).handler = s.handler := by
  rw [newLogItem, handler_trimBuffer]
  cases cachedLine <;> rfl

theorem exists_cached {x : LogItem} (hx : x ∈ records cacheFile) : ∃ n, x = .cached n := by
  obtain ⟨n, -, rfl⟩ := List.mem_map.mp hx
  exact ⟨n, rfl⟩

theorem Sound.readCacheContents (h : Sound cacheFile s) {items : List LogItem} {itemsRead : Nat}
    (hhandler : s.handler = .reading items itemsRead) (hcalm : Calm s .handleMessage) :
    Sound cacheFile (readCacheContents s items itemsRead) := by
  have hunread : ∀ x ∈ items, x ∈ records cacheFile := by
    intro x hx
    refine h.unread x ?_
    rw [hhandler]
    exact hx
  cases items with
  | nil =>
    refine h.log.withHandler ?_ (by simp [LogFileHandler.unread])
    rw [LogFileHandler.log, handler_newLogItem, hhandler]
    rfl
  | cons x items =>
    obtain ⟨n, rfl⟩ := exists_cached (hunread x List.mem_cons_self)
    have hfront : s.logbuffer.length < maxLogEntries + maxLogEntries / 2 → ∀ x ∈ s.logbuffer, x.restored = false := by
      unfold Calm at hcalm
      rw [hhandler] at hcalm
      exact hcalm
    have hrestored := h.restore (hunread _ List.mem_cons_self) hfront
    unfold LogFileHandler.readCacheContents
    dsimp only
    split
    · refine hrestored.log.withHandler ?_ (by simp [LogFileHandler.unread])
      rw [LogFileHandler.log, handler_newLogItem, handler_newLogItem, hhandler]
      rfl
    · refine hrestored.withHandler ?_ fun x hx => hunread x (List.mem_cons_of_mem _ hx)
      rw [handler_newLogItem, hhandler]
      rfl

theorem Sound.writeLog (h : Sound cacheFile s) {logFile : List LogItem} {m : Message} {queue : List Message}
    (hhandler : s.handler = .ready logFile) (hqueue : s.queue = m :: queue) (hcalm : Calm s .handleMessage) :
    Sound cacheFile (writeLog { s with queue := queue } logFile m) := by
  have honce : (logFile ++ queued s.queue).Nodup := by
    have honce := h.once
    rwa [hhandler] at honce
  have hmade : ∀ n, .logged n ∈ s.logbuffer ++ (logFile ++ queued s.queue) → n < s.made := by
    have hmade := h.made
    rwa [hhandler] at hmade
  rw [hqueue] at honce hmade
  cases m with
  | logMessage x =>
    have happend : logFile ++ queued (.logMessage x :: queue) = logFile ++ [x] ++ queued queue := by
      rw [List.append_assoc]
      rfl
    rw [happend] at honce hmade
    exact ⟨h.nodup, h.order, honce, hmade, by simp [LogFileHandler.writeLog, LogFileHandler.unread]⟩
  | trimLogFile =>
    have hwait : ∀ x ∈ queued queue, x ∉ s.logbuffer := by
      unfold Calm at hcalm
      rw [hhandler, hqueue] at hcalm
      exact hcalm
    refine ⟨h.nodup, h.order, ?_, ?_, by simp [LogFileHandler.writeLog, LogFileHandler.unread]⟩
    · refine List.Nodup.append h.nodup honce.of_append_right ?_
      exact fun x hbuffer hx => hwait x hx hbuffer
    · intro n hn
      refine hmade n ?_
      rcases List.mem_append.mp hn with hn | hn
      · exact List.mem_append_left _ hn
      · rcases List.mem_append.mp hn with hn | hn
        · exact List.mem_append_left _ hn
        · exact List.mem_append_right _ (List.mem_append_right _ hn)
  | flushToDisk =>
    refine ⟨h.nodup, h.order, ?_, ?_, h.unread⟩
    · rw [LogFileHandler.writeLog, hhandler]
      exact honce
    · rw [LogFileHandler.writeLog, hhandler]
      exact hmade

theorem Sound.handleMessage (h : Sound cacheFile s) {t : State} (hcalm : Calm s .handleMessage)
    (hstep : handleMessage s = some t) : Sound cacheFile t := by
  obtain ⟨hhandler, rfl⟩ | ⟨items, hhandler, rfl⟩ | ⟨items, itemsRead, hhandler, rfl⟩ |
      ⟨logFile, m, queue, hhandler, hqueue, rfl⟩ := handleMessage_cases hstep
  · refine h.withHandler ?_ (by simp [LogFileHandler.unread])
    rw [hhandler]
    rfl
  · refine h.withHandler ?_ ?_
    · rw [hhandler]
      rfl
    · have hunread := h.unread
      rwa [hhandler] at hunread
  · exact h.readCacheContents hhandler hcalm
  · exact h.writeLog hhandler hqueue hcalm

theorem Sound.clearLog (h : Sound cacheFile s) : Sound cacheFile (clearLog s) := by
  have hclear := h.drop s.logbuffer.length
  rw [List.drop_length] at hclear
  exact hclear.log.sendMessage rfl

theorem Init.sound (h : Init cacheFile s) : Sound cacheFile s where
  nodup := h.nodup
  order := by
    refine ⟨[], s.logbuffer, rfl, List.nil_sublist _, fun x hx => ?_⟩
    obtain ⟨n, -, rfl⟩ := h.logged x hx
    rfl
  once := by
    rw [h.handler, h.queue]
    exact List.nodup_nil
  made := by
    intro n hn
    rw [h.handler, h.queue] at hn
    obtain ⟨k, hk, heq⟩ := h.logged _ (by simpa [written, queued] using hn)
    cases heq
    exact hk
  unread := by
    rw [h.handler]
    cases cacheFile with
    | none => simp [LogFileHandler.unread]
    | some items => exact fun x hx => hx

theorem Sound.step (h : Sound cacheFile s) {e : Event} {t : State} (hcalm : Calm s e) (hstep : step s e = some t) :
    Sound cacheFile t := by
  cases e with
  | newLogItem =>
    cases hstep
    exact h.log
  | clearLog =>
    cases hstep
    exact h.clearLog
  | flushLog =>
    cases hstep
    exact h.sendMessage rfl
  | handleMessage => exact h.handleMessage hcalm hstep

end Steps

/-! ### Runs -/

/-- What the log promises over restarts. -/
structure Consistent (cacheFile : Option (List Nat)) (s : State) : Prop where
  length_le : s.logbuffer.length ≤ maxLogEntries + maxLogEntries / 2
  order : Ordered cacheFile s.logbuffer
  once : (written s.handler).Nodup

/-- In a calm run the log is consistent all the time. -/
theorem consistent_of_calm {cacheFile : Option (List Nat)} {s : State} (h : Reachable (system cacheFile) Calm s) :
    Consistent cacheFile s := by
  have hsound : Sound cacheFile s := h.inv (fun _ hinit => Init.sound hinit) fun _ _ _ ih hcalm hstep => ih.step hcalm hstep
  exact ⟨length_logbuffer_le h, hsound.order, hsound.once.of_append_left⟩

/-- What the program has logged before there is a handler. -/
def started (cacheFile : Option (List Nat)) : State :=
  { logbuffer := [.logged 0], handler := .created (cacheFile.map (List.map .cached)), made := 1 }

theorem init_started (cacheFile : Option (List Nat)) : (system cacheFile).init (started cacheFile) where
  handler := rfl
  queue := rfl
  length := (by decide : 1 ≤ maxLogEntries + maxLogEntries / 2)
  nodup := List.nodup_singleton _
  logged := by
    intro x hx
    exact ⟨0, Nat.zero_lt_one, List.mem_singleton.mp hx⟩

/-- One item is restored, the log is cleared and goes on. -/
theorem consistent_of_calm_sample :
    Consistent (some [0])
      { logbuffer := [.logged 2, .logged 3], handler := .ready [.logged 2, .logged 3], made := 4 } := by
  have hrun : (system (some [0])).run Calm (started (some [0]))
      [.handleMessage, .handleMessage, .handleMessage, .clearLog, .handleMessage, .handleMessage, .handleMessage,
        .newLogItem, .handleMessage] =
      some { logbuffer := [.logged 2, .logged 3], handler := .ready [.logged 2, .logged 3], made := 4 } := by
    decide
  exact consistent_of_calm ((Reachable.init (init_started _)).run hrun)

theorem Ordered.filter {cacheFile : Option (List Nat)} {logbuffer : List LogItem} (h : Ordered cacheFile logbuffer) :
    (logbuffer.filter LogItem.restored).Sublist (records cacheFile) := by
  obtain ⟨restored, new, rfl, hrestored, hnew⟩ := h
  have hnil : new.filter LogItem.restored = [] :=
    List.filter_eq_nil_iff.mpr fun x hx => by simp [hnew x hx]
  rw [List.filter_append, hnil, List.append_nil]
  exact List.filter_sublist.trans hrestored

/-- Two items are restored in the wrong order; and an item that is logged right after the log was cleared is in the file
    twice. -/
theorem not_consistent :
    (∃ s, Reachable (system (some [0, 1])) Any s ∧ Idle s ∧ ¬ Ordered (some [0, 1]) s.logbuffer) ∧
      ∃ s, Reachable (system none) Any s ∧ Idle s ∧ ¬ (written s.handler).Nodup := by
  have hrestore : (system (some [0, 1])).run Any (started (some [0, 1])) (List.replicate 5 .handleMessage) =
      some { logbuffer := [.cached 1, .cached 0, .logged 0, .logged 1], handler := .ready [.logged 1], made := 2 } := by
    decide
  have htrim : (system none).run Any (started none)
      [.handleMessage, .clearLog, .newLogItem, .handleMessage, .handleMessage, .handleMessage] =
      some { logbuffer := [.logged 1, .logged 2], handler := .ready [.logged 1, .logged 2, .logged 2], made := 3 } := by
    decide
  refine ⟨⟨_, (Reachable.init (init_started _)).run hrestore, ⟨rfl, _, rfl⟩, fun h => ?_⟩,
    ⟨_, (Reachable.init (init_started _)).run htrim, ⟨rfl, _, rfl⟩, by decide⟩⟩
  exact absurd h.filter (by decide)

end LogFileHandler
end NicVpn

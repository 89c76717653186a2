import Log73.Db.Atomicity
import Log73.Frontend.SerialHeld
import Log73.Library.Runs

/-!
Any number of pages and the server: requests for serials and their answers, contacts that are
observed and logged, and every command of the database. Each page has an instance id of its own.
-/

namespace Log73.Frontend

open SortedAssoc
open Std (ExtTreeMap)

/-- No part of the program reads which contacts were logged, with which serial of which page. -/
structure SerialSystem where
  server : SerialHistory
  clients : Nat → SerialClient := fun _ => {}
  logged : List (Nat × AllocatorKey × Int) := []

inductive SerialAction where
  | server (command : DbCommand)
  | serve (id place : Nat)
  | client (id : Nat) (action : ClientAction)
  | log (id : Nat) (adif : Map)

namespace SerialSystem

variable [Platform] [Browser] (contestRules : String → Option ContestRules)
  (system : SerialSystem)

def setClient (id : Nat) (client : SerialClient) : SerialSystem :=
  { system with clients := Function.update system.clients id client }

/-- What the server makes of a request. -/
def answerTo (server : SerialHistory) (request : AllocatorRequest) :
    SerialHistory × AllocatorAnswer :=
  match request.call with
  | .reservation =>
      let result := server.allocateSerial contestRules request.key.1 request.key.2
      (result.1, match result.2 with
        | .ok allocation => .reserved allocation
        | .error _ => .failed)
  | .initialization =>
      let result := server.serialState contestRules request.key.1 request.key.2
      (result.1, match result.2 with
        | .ok state => .state state
        | .error _ => .failed)

/-- The server handles a request once. -/
def serve (id place : Nat) : SerialSystem :=
  match (system.clients id).requests[place]? with
  | none => system
  | some request =>
      if request.answer.isSome then system
      else
        let result := answerTo contestRules system.server request
        { system.setClient id ((system.clients id).answer place request result.2) with
          server := result.1 }

/-- A contact is logged with the serial its page holds, and observed at once. -/
def log (id : Nat) (adif : Map) : SerialSystem :=
  match (system.clients id).loggedWith adif with
  | none => system
  | some held =>
      { system.setClient id ((system.clients id).act (.observe adif)) with
        logged := system.logged ++ [(id, held)] }

def step : SerialAction → SerialSystem
  | .server command => { system with server := system.server.step command }
  | .serve id place => system.serve contestRules id place
  | .client id action => system.setClient id ((system.clients id).act action)
  | .log id adif => system.log id adif

def run (actions : List SerialAction) : SerialSystem :=
  Runs.run (fun system action => step contestRules system action) system actions

def start (connection : Connection) : SerialSystem where
  server := .start connection

/-- No two contacts of one log and field were logged with the same serial, and no allocator holds
one that it has consumed. -/
structure Unique (system : SerialSystem) : Prop where
  logged : system.logged.Pairwise fun entry other => entry.2 ≠ other.2
  unused : ∀ id key serial, (system.clients id).next = some (key, serial) →
    (key, serial) ∉ (system.clients id).consumed

/-- No log is deleted, whose id could be given to another one. -/
def InScope : SerialAction → Prop
  | .server (.deleteLog _) => False
  | _ => True

/-- A serial that is reserved is not read as the same double as one before it. -/
def StepRead : SerialAction → Prop
  | .serve id place => ∀ request allocation, (system.clients id).requests[place]? = some request →
      (system.server.allocateSerial contestRules request.key.1 request.key.2).2 = .ok allocation →
        ∀ earlier ∈ system.server.allocations, earlier.logId = request.key.1 →
          normalizeAdifFieldName earlier.fieldAdif = normalizeAdifFieldName request.key.2 →
            toDouble earlier.serial ≠ toDouble allocation.serial
  | _ => True

/-- The serials that were handed out to the pages, each once. -/
structure Held (system : SerialSystem) (handed : List (Nat × AllocatorKey × Int)) : Prop where
  server : system.server.Sound
  clients : ∀ id, (system.clients id).Sound (fun key serial => (id, key, serial) ∈ handed)
    fun key serial => (id, key, serial) ∈ system.logged
  apart : (handed.map Prod.snd).Nodup
  allocated : ∀ entry ∈ handed, ∃ allocation ∈ system.server.allocations,
    allocation.logId = entry.2.1.1 ∧
      normalizeAdifFieldName allocation.fieldAdif = normalizeAdifFieldName entry.2.1.2 ∧
      toDouble allocation.serial = entry.2.2
  logged : (system.logged.map Prod.snd).Nodup

variable {contestRules system} {handed : List (Nat × AllocatorKey × Int)}

theorem Held.unique (h : system.Held handed) : system.Unique where
  logged := List.pairwise_map.mp h.logged
  unused id key serial hnext := ((h.clients id).held key serial hnext).2

theorem held_start {connection : Connection} (hfile : connection.WellFormed) :
    (start connection).Held [] where
  server := SerialHistory.start_sound hfile
  clients _ := SerialClient.sound_empty.finish fun _ _ hmem => nomatch hmem
  apart := .nil
  allocated _ hmem := nomatch hmem
  logged := .nil

omit [Browser] in
/-- A serial that was handed out stays so, unless a log is deleted. -/
theorem mem_record {history : SerialHistory} {allocation : SerialAllocation} {command : DbCommand}
    (hmem : allocation ∈ history.allocations) (hscope : InScope (.server command)) :
    allocation ∈ (history.step command).allocations := by
  cases command with
  | deleteLog id => exact hscope.elim
  | allocateSerial logId field =>
      rw [SerialHistory.step, SerialHistory.record]
      split
      · exact List.mem_cons_of_mem _ hmem
      · exact hmem
  | createLog _ _ _ _ _ | updateLog _ _ _ _ | loadContacts _ | upsertContacts _ _ _
  | deleteContact _
  | restart => exact hmem

/-- One page does something, without the server. -/
theorem Held.client (h : system.Held handed) (id : Nat) (action : ClientAction) :
    (system.setClient id ((system.clients id).act action)).Held handed := by
  refine ⟨h.server, fun other => ?_, h.apart, h.allocated, h.logged⟩
  rw [setClient]
  dsimp only
  by_cases hother : other = id
  · subst hother
    rw [Function.update_self]
    exact (h.clients other).act action
  · rw [Function.update_of_ne hother]
    exact h.clients other

theorem Held.log (h : system.Held handed) (id : Nat) (adif : Map) :
    (system.log id adif).Held handed := by
  rw [SerialSystem.log]
  split
  · exact h
  · next held hlogged =>
      obtain ⟨key, serial⟩ := held
      obtain ⟨hnext, hconsumed⟩ := SerialClient.loggedWith_spec hlogged
      have hclient := h.client id (.observe adif)
      obtain ⟨hhanded, hfree⟩ := (h.clients id).held key serial hnext
      refine ⟨hclient.server, fun other =>
        (hclient.clients other).finish fun found value hmem => ?_,
        h.apart, h.allocated, ?_⟩
      · cases List.mem_append.mp hmem with
        | inl hold => exact Or.inl hold
        | inr hnew =>
            cases List.mem_singleton.mp hnew
            rw [setClient]
            dsimp only
            rw [Function.update_self]
            exact Or.inr hconsumed
      · rw [List.map_append, List.nodup_append]
        refine ⟨h.logged, List.nodup_singleton _, fun entry hentry other hother heq => ?_⟩
        rw [List.mem_singleton.mp hother] at heq
        obtain ⟨⟨owner, found⟩, hmem, hvalue⟩ := List.mem_map.mp hentry
        obtain rfl : found = (key, serial) := hvalue.trans heq
        -- Both were handed out, so they were handed out to one page, which consumed the serial.
        have howner := (h.clients owner).consumed _ _ ((h.clients owner).done _ _ hmem)
        have hsame := List.inj_on_of_nodup_map h.apart howner hhanded rfl
        cases hsame
        exact hfree ((h.clients id).done _ _ hmem)

/-- The server answers one page, with a serial that is read apart from those before or with none. -/
theorem Held.answer (h : system.Held handed) {id place : Nat} {request : AllocatorRequest}
    (hget : (system.clients id).requests[place]? = some request) (answer : AllocatorAnswer)
    {server : SerialHistory} (hserver : server.Sound)
    (hkeeps : ∀ allocation ∈ system.server.allocations, allocation ∈ server.allocations)
    {more : List (Nat × AllocatorKey × Int)}
    (hbrings : ∀ serial, AllocatorRequest.Brings { request with answer := some answer } serial →
      (id, request.key, serial) ∈ more)
    (hmore : (more.map Prod.snd).Nodup)
    (hfresh : ∀ entry ∈ more, entry.2 ∉ handed.map Prod.snd)
    (hallocated : ∀ entry ∈ more, ∃ allocation ∈ server.allocations,
      allocation.logId = entry.2.1.1 ∧
        normalizeAdifFieldName allocation.fieldAdif = normalizeAdifFieldName entry.2.1.2 ∧
        toDouble allocation.serial = entry.2.2) :
    SerialSystem.Held { system.setClient id ((system.clients id).answer place request answer) with
      server := server } (handed ++ more) := by
  refine ⟨hserver, fun other => ?_, ?_, fun entry hmem => ?_, h.logged⟩
  · dsimp only [setClient]
    by_cases hother : other = id
    · subst hother
      rw [Function.update_self]
      refine (h.clients other).answer hget answer (fun _ _ hin => List.mem_append_left _ hin)
        fun serial hserial => ⟨List.mem_append_right _ (hbrings serial hserial), fun hin => ?_⟩
      exact hfresh _ (hbrings serial hserial) (List.mem_map_of_mem hin)
    · rw [Function.update_of_ne hother]
      exact (h.clients other).mono fun _ _ hin => List.mem_append_left _ hin
  · rw [List.map_append, List.nodup_append]
    refine ⟨h.apart, hmore, fun entry hentry other hother heq => ?_⟩
    obtain ⟨new, hnew, rfl⟩ := List.mem_map.mp hother
    exact hfresh new hnew (heq ▸ hentry)
  · cases List.mem_append.mp hmem with
    | inl hold =>
        obtain ⟨allocation, hin, hrest⟩ := h.allocated entry hold
        exact ⟨allocation, hkeeps allocation hin, hrest⟩
    | inr hnew => exact hallocated entry hnew

/-- An answer that is no reservation brings nothing. -/
theorem Held.answer_nothing (h : system.Held handed) {id place : Nat} {request : AllocatorRequest}
    (hget : (system.clients id).requests[place]? = some request) {answer : AllocatorAnswer}
    (hnothing : ∀ serial, ¬ AllocatorRequest.Brings { request with answer := some answer } serial)
    {server : SerialHistory} (hserver : server.Sound)
    (hsame : server.allocations = system.server.allocations) :
    SerialSystem.Held { system.setClient id ((system.clients id).answer place request answer) with
      server := server } handed := by
  rw [← List.append_nil handed]
  refine h.answer hget answer hserver (fun allocation hmem => hsame ▸ hmem)
    (fun serial hbrings => absurd hbrings (hnothing serial)) .nil (fun _ hmem => nomatch hmem)
    fun _ hmem => nomatch hmem

variable (contestRules) in
/-- The server reserves a serial, or answers with none. -/
theorem answerTo_cases {server : SerialHistory} (h : server.Sound) (request : AllocatorRequest) :
    (answerTo contestRules server request).1.Sound ∧
      ((∃ allocation, (server.allocateSerial contestRules request.key.1 request.key.2).2 =
            .ok allocation ∧ (answerTo contestRules server request).2 = .reserved allocation ∧
          server.Allocates (answerTo contestRules server request).1 request.key.1 request.key.2
            allocation) ∨
        (∀ serial, ¬ AllocatorRequest.Brings
            { request with answer := some (answerTo contestRules server request).2 } serial) ∧
          (answerTo contestRules server request).1.allocations = server.allocations) := by
  match hcall : request.call with
  | .reservation =>
      have hsound := h.allocateSerial contestRules request.key.1 request.key.2
      rw [answerTo, hcall]
      dsimp only
      rcases h.allocateSerial_cases contestRules request.key.1 request.key.2 with
        ⟨allocation, hok, hallocates⟩ | ⟨⟨error, herror⟩, hsame⟩
      · rw [hok]
        exact ⟨hsound, Or.inl ⟨allocation, rfl, rfl, hallocates⟩⟩
      · rw [herror]
        refine ⟨hsound, Or.inr ⟨fun serial hbrings => ?_, hsame⟩⟩
        obtain ⟨-, _, hanswer, -⟩ := hbrings
        cases hanswer
  | .initialization =>
      obtain ⟨hsound, hsame⟩ := h.serialState contestRules request.key.1 request.key.2
      have hanswer : (answerTo contestRules server request).1 =
          (server.serialState contestRules request.key.1 request.key.2).1 := by
        rw [answerTo, hcall]
      rw [hanswer]
      exact ⟨hsound, Or.inr ⟨fun serial hbrings => (nomatch hbrings.1), hsame⟩⟩

theorem Held.serve (h : system.Held handed) (id place : Nat)
    (hread : system.StepRead contestRules (.serve id place)) :
    ∃ handed, (system.serve contestRules id place).Held handed := by
  rw [SerialSystem.serve]
  split
  · exact ⟨handed, h⟩
  · next request hget =>
      split
      · exact ⟨handed, h⟩
      · obtain ⟨hserver, hcases⟩ := answerTo_cases contestRules h.server request
        rcases hcases with ⟨allocation, hok, hanswer, hallocates⟩ | ⟨hnothing, hsame⟩
        · refine ⟨handed ++ [(id, request.key, toDouble allocation.serial)], ?_⟩
          dsimp only
          rw [hanswer]
          have hrecorded : allocation ∈
              (answerTo contestRules system.server request).1.allocations := by
            rw [hallocates.recorded]
            exact List.mem_cons_self
          refine h.answer hget (.reserved allocation) hserver (fun earlier hmem => ?_)
            (fun serial hbrings => ?_) (List.nodup_singleton _) (fun entry hmem hin => ?_)
            fun entry hmem => ?_
          · rw [hallocates.recorded]
            exact List.mem_cons_of_mem _ hmem
          · obtain ⟨-, found, hfound, hserial⟩ := hbrings
            cases hfound
            obtain ⟨hserial, -⟩ := Option.filter_eq_some_iff.mp hserial
            rw [← Option.some.inj hserial]
            exact List.mem_singleton_self _
          · -- An earlier reservation that was read so is read apart from this one.
            rw [List.mem_singleton.mp hmem] at hin
            obtain ⟨earlier, hearlier, hsame⟩ := List.mem_map.mp hin
            obtain ⟨before, hbefore, hlog, hfield, hdouble⟩ := h.allocated earlier hearlier
            rw [hsame] at hlog hfield hdouble
            exact hread request allocation hget hok before hbefore hlog hfield hdouble
          · rw [List.mem_singleton.mp hmem]
            exact ⟨allocation, hrecorded, hallocates.sameLog, hallocates.sameField, rfl⟩
        · exact ⟨handed, h.answer_nothing hget hnothing hserver hsame⟩

theorem Held.step (h : system.Held handed) (action : SerialAction) (hscope : InScope action)
    (hread : system.StepRead contestRules action) :
    ∃ handed, (system.step contestRules action).Held handed := by
  cases action with
  | server command =>
      refine ⟨handed, h.server.step command, h.clients, h.apart, fun entry hmem => ?_, h.logged⟩
      obtain ⟨allocation, hin, hrest⟩ := h.allocated entry hmem
      exact ⟨allocation, mem_record hin hscope, hrest⟩
  | serve id place => exact h.serve id place hread
  | client id action => exact ⟨handed, h.client id action⟩
  | log id adif => exact ⟨handed, h.log id adif⟩

omit [Platform] [Browser] in
theorem toDouble_ne_of_lt {earlier serial : Int} (hlt : earlier < serial) (hpos : 0 < serial)
    (hle : serial ≤ 9007199254740992) : toDouble earlier ≠ toDouble serial := by
  rw [toDouble_of_le (by omega : serial.natAbs ≤ 9007199254740992)]
  by_cases hnonpos : earlier ≤ 0
  · have hread : toDouble earlier ≤ 0 :=
      Int.mul_nonpos_of_nonpos_of_nonneg (Int.sign_nonpos_iff.mpr hnonpos) (Int.natCast_nonneg _)
    omega
  · rw [toDouble_of_le (by omega : earlier.natAbs ≤ 9007199254740992)]
    exact ne_of_lt hlt

/-- Serials up to 2^53 are read apart. -/
theorem Held.stepRead (h : system.Held handed) {id place : Nat}
    (hle : ∀ request allocation, (system.clients id).requests[place]? = some request →
      (system.server.allocateSerial contestRules request.key.1 request.key.2).2 = .ok allocation →
        allocation.serial ≤ 9007199254740992) :
    system.StepRead contestRules (.serve id place) := by
  intro request allocation hget hok earlier hmem hlog hfield
  rcases h.server.allocateSerial_cases contestRules request.key.1 request.key.2 with
    ⟨found, hfound, hallocates⟩ | ⟨⟨error, herror⟩, -⟩
  · obtain rfl := Except.ok.inj (hfound.symm.trans hok)
    exact toDouble_ne_of_lt (hallocates.fresh earlier hmem hlog hfield) hallocates.positive
      (hle request found hget hok)
  · cases herror.symm.trans hok

/-- In every run without deleted logs whose serials are read apart, no serial of a field is logged
twice, and none is held again. -/
theorem serials_unique (contestRules : String → Option ContestRules) (connection : Connection)
    (hfile : connection.WellFormed) (actions : List SerialAction)
    (hkeeps : Runs.Keeps (fun system action => step contestRules system action)
      (fun system action => InScope action ∧ StepRead contestRules system action)
      (start connection) actions)
    (earlier : List SerialAction) (hearlier : earlier <+: actions) :
    (run contestRules (start connection) earlier).Unique := by
  have hheld : ∃ handed, (run contestRules (start connection) earlier).Held handed := by
    refine Runs.invariant_run (fun system => ∃ handed, SerialSystem.Held system handed)
      (fun system action hsystem hallowed => ?_) ⟨[], held_start hfile⟩ (hkeeps.of_prefix hearlier)
    obtain ⟨handed, hsystem⟩ := hsystem
    exact hsystem.step action hallowed.1 hallowed.2
  obtain ⟨handed, hheld⟩ := hheld
  exact hheld.unique

end SerialSystem

section Examples

attribute [local instance] plainBrowser asciiPlatform

namespace SerialSystem

/-- Where there are many transmitters, each serial is reserved. -/
def serialRules : ContestRules :=
  { id := "test-contest"
    exchange :=
      [{ label := "Serial", input := { kind := .serial }, adif := "STX", direction := .sent }]
    cabrillo := some
      { fixedHeaders := [{ name := "CATEGORY-TRANSMITTER", value := "UNLIMITED" }] } }

/-- A log with the serial that is next. -/
def serialFile (next : Int) : Connection :=
  { logs := (∅ : ExtTreeMap Int64 Log).insert 1 Worker.testLog
    serials := (∅ : ExtTreeMap Int64 (KeyMap Int)).insert 1 ((∅ : KeyMap Int).insert "STX" next) }

theorem serialFile_wellFormed (next : Int) : (serialFile next).WellFormed where
  logIds := (Connection.wellFormed_log Worker.testLog).logIds
  rowLogs := (Connection.wellFormed_log Worker.testLog).rowLogs

/-- A page is told the state, and then a serial. -/
def reserveActions (id : Nat) : List SerialAction :=
  [.serve id 0, .client id (.respond 0), .serve id 0, .client id (.respond 0)]

/-- A contact is logged with the serial that was reserved for it. -/
def reserveOnce : List SerialAction :=
  .client 0 (.openAllocator (1, "STX")) :: reserveActions 0 ++ [.log 0 [("STX", .string "7")]]

theorem serials_unique_reserved :
    (run (fun _ => some serialRules) (start (serialFile 7)) reserveOnce).logged =
        [(0, (1, "STX"), 7)] ∧
      (run (fun _ => some serialRules) (start (serialFile 7)) reserveOnce).Unique := by
  -- No serial was reserved before this one.
  have hfirst : ∀ {system : SerialSystem} {place : Nat}, system.server.allocations = [] →
      system.StepRead (fun _ => some serialRules) (.serve 0 place) := by
    intro system place hnone request allocation _ _ earlier hmem
    rw [hnone] at hmem
    cases hmem
  refine ⟨by decide +kernel, ?_⟩
  refine serials_unique (fun _ => some serialRules) (serialFile 7) (serialFile_wellFormed 7)
    reserveOnce ⟨⟨trivial, trivial⟩, ⟨trivial, hfirst ?_⟩, ⟨trivial, trivial⟩,
      ⟨trivial, hfirst ?_⟩, ⟨trivial, trivial⟩, ⟨trivial, trivial⟩, trivial⟩
    reserveOnce (List.prefix_refl _)
  · rfl
  · rfl

/-- Two pages reserve the serials past 2^53, one after the other. -/
def reservedPastDoubles : List SerialAction :=
  [.client 0 (.openAllocator (1, "STX")), .client 1 (.openAllocator (1, "STX"))] ++
    reserveActions 0 ++ reserveActions 1 ++
    [.log 0 [("STX", .string "9007199254740996")], .log 1 [("STX", .string "9007199254740996")]]

theorem logged_reservedPastDoubles :
    (run (fun _ => some serialRules) (start (serialFile 9007199254740995))
      reservedPastDoubles).logged =
      [(0, (1, "STX"), 9007199254740996), (1, (1, "STX"), 9007199254740996)] := by
  decide +kernel

/-- The serials 9007199254740995 and 9007199254740996 are read as the same double. -/
theorem not_unique_pastDoubles :
    (serialFile 9007199254740995).WellFormed ∧
      Runs.Keeps (fun system action => step (fun _ => some serialRules) system action)
        (fun _ action => InScope action) (start (serialFile 9007199254740995))
        reservedPastDoubles ∧
      ¬ (run (fun _ => some serialRules) (start (serialFile 9007199254740995))
        reservedPastDoubles).Unique := by
  refine ⟨serialFile_wellFormed _, ⟨trivial, trivial, trivial, trivial, trivial, trivial, trivial,
    trivial, trivial, trivial, trivial, trivial, trivial⟩, fun h => ?_⟩
  have hlogged := h.logged
  rw [logged_reservedPastDoubles] at hlogged
  exact (List.pairwise_cons.mp hlogged).1 _ (List.mem_singleton_self _) rfl

end SerialSystem
end Examples

end Log73.Frontend

import EmulatorHost.Proofs.Foreign.Lives
import EmulatorHost.Proofs.Foreign.Paths

namespace EmulatorHost.Foreign

inductive Request where
  | frame (surface : UInt64)
  | resize (size : Size)
  | load (path : Path)
  deriving DecidableEq, Repr

namespace Request

def call? (userData : UInt64) : Request → Option HostCall
  | .frame surface => some (.runFrame userData surface)
  | .resize size => some (.setOutputSize userData size)
  | .load path => if path.Representable then some (.loadRom userData ⟨path.bytes ++ [0]⟩) else none

def refusal : Request → CoreError
  | .frame _ => .renderFailed "host core reported a failed frame"
  | .resize size => .resizeFailed size "host core rejected size"
  | .load path =>
    .loadFailed (if path.Representable then "host core rejected ROM"
      else if Utf8.WellFormed path.bytes then "path contains a NUL byte"
      else "path is not valid UTF-8")

def seen (userData : UInt64) (request : Request) (outcome : CoreOutcome) : List Call :=
  (request.call? userData).toList.map (·, some outcome.accepted)

/-- An outcome that the request can have. A request that cannot be put to the host is refused. -/
def Settles (userData : UInt64) (request : Request) (outcome : CoreOutcome) : Prop :=
  outcome = Core.outcome request.refusal outcome.accepted ∧
    (request.call? userData = none → outcome.accepted = false)

end Request

theorem Table.firstMissing?_eq (t : Table) : t.firstMissing? =
    if t.offers .runFrame = false then some .runFrame
    else if t.offers .setOutputSize = false then some .setOutputSize
    else if t.offers .loadRom = false then some .loadRom
    else none := by
  cases hf : t.offers .runFrame <;> cases hs : t.offers .setOutputSize <;>
    cases hl : t.offers .loadRom <;> simp [firstMissing?, required, hf, hs, hl]

namespace Core

variable {ω : Type}

def serve (h : HostProgram ω) (core : Core) : Request → ω → CoreOutcome × ω
  | .frame surface => core.runFrame h surface
  | .resize size => core.setOutputSize h size
  | .load path => core.loadRom h path

def drive (h : HostProgram ω) (core : Core) : List Request → ω → List CoreOutcome × ω
  | [], w => ([], w)
  | request :: rest, w =>
    let (outcome, w) := core.serve h request w
    let (outcomes, w) := core.drive h rest w
    (outcome :: outcomes, w)

/-- A core's whole life: its creation, the requests it serves, and its drop. -/
def live (h : HostProgram ω) (t : Table) (requests : List Request) (w : ω) :
    Except CoreError (List CoreOutcome) × ω :=
  match create h t w with
  | (.error e, w) => (.error e, w)
  | (.ok core, w) =>
    let (outcomes, w) := core.drive h requests w
    (.ok outcomes, core.drop h w)

variable {h : HostProgram ω} {core : Core} {request : Request} {t : Table}

theorem serve_of_call {call : HostCall} (put : request.call? core.userData = some call)
    (h : HostProgram ω) (r : HostRecord ω) :
    ∃ answer world, h.reply call r.world = (some answer, world) ∧
      core.serve h.recorded request r =
        (outcome request.refusal answer, ⟨world, r.calls ++ [(call, some answer)]⟩) := by
  cases request with
  | frame | resize =>
    obtain rfl := Option.some.inj put
    exact ⟨_, _, rfl, rfl⟩
  | load path =>
    by_cases able : path.Representable
    · obtain rfl := Option.some.inj ((if_pos able).symm.trans put)
      refine ⟨_, _, rfl, ?_⟩
      rw [Request.refusal, if_pos able]
      exact loadRom_of_representable able h.recorded core r
    · cases (if_neg able).symm.trans put

theorem serve_of_no_call (unput : request.call? core.userData = none) (h : HostProgram ω) (w : ω) :
    core.serve h request w = (.error request.refusal, w) := by
  cases request with
  | frame | resize => cases unput
  | load path =>
    by_cases able : path.Representable
    · cases (if_pos able).symm.trans unput
    · rw [Request.refusal, if_neg able]
      by_cases formed : Utf8.WellFormed path.bytes
      · have cut : 0 ∈ path.bytes := by
          by_contra whole
          exact able ⟨formed, whole⟩
        rw [if_pos formed]
        exact loadRom_of_cut formed cut h core w
      · rw [if_neg formed]
        exact loadRom_of_illFormed formed h core w

theorem serve_recorded (h : HostProgram ω) (core : Core) (request : Request) (r : HostRecord ω) :
    ∃ outcome world, core.serve h.recorded request r =
        (outcome, ⟨world, r.calls ++ request.seen core.userData outcome⟩) ∧
      request.Settles core.userData outcome ∧
      h.replay? (request.seen core.userData outcome) r.world = some world := by
  cases put : request.call? core.userData with
  | none =>
    refine ⟨.error request.refusal, r.world, ?_, ⟨rfl, fun _ => rfl⟩, ?_⟩
    · rw [serve_of_no_call put, Request.seen, put]
      simp
    · rw [Request.seen, put]
      rfl
  | some call =>
    obtain ⟨answer, world, replied, served⟩ := serve_of_call put h r
    refine ⟨outcome request.refusal answer, world, ?_, ⟨?_, ?_⟩, ?_⟩
    · rw [served, Request.seen, put, accepted_outcome]
      rfl
    · rw [accepted_outcome]
    · rw [put]
      exact nofun
    · rw [Request.seen, put, accepted_outcome]
      exact HostProgram.replay?_singleton.2 replied

def seen (userData : UInt64) (requests : List Request) (outcomes : List CoreOutcome) : List Call :=
  (requests.zip outcomes).flatMap fun (request, outcome) => request.seen userData outcome

theorem drive_recorded (h : HostProgram ω) (core : Core) (requests : List Request)
    (r : HostRecord ω) :
    ∃ outcomes world, core.drive h.recorded requests r =
        (outcomes, ⟨world, r.calls ++ seen core.userData requests outcomes⟩) ∧
      List.Forall₂ (Request.Settles core.userData) requests outcomes ∧
      h.replay? (seen core.userData requests outcomes) r.world = some world := by
  induction requests generalizing r with
  | nil => exact ⟨[], r.world, by simp [drive, seen], .nil, rfl⟩
  | cons request rest ih =>
    obtain ⟨outcome, world, served, settles, replied⟩ := serve_recorded h core request r
    obtain ⟨outcomes, last, driven, settled, replayed⟩ :=
      ih ⟨world, r.calls ++ request.seen core.userData outcome⟩
    refine ⟨outcome :: outcomes, last, ?_, .cons settles settled, ?_⟩
    · simp only [drive, served, driven]
      simp [seen]
    · change h.replay? (request.seen core.userData outcome ++ _) _ = _
      rw [HostProgram.replay?_append, replied]
      exact replayed

theorem drop_recorded (hd : core.hasDestroy = t.offers .destroy) (hu : core.userData = t.userData)
    (h : HostProgram ω) (r : HostRecord ω) :
    ∃ world, core.drop h.recorded r = ⟨world, r.calls ++ t.closing⟩ ∧
      h.replay? t.closing r.world = some world := by
  rw [drop, hd, hu, Table.closing]
  cases t.offers .destroy with
  | false => exact ⟨r.world, by simp, rfl⟩
  | true => exact ⟨_, rfl, HostProgram.replay?_singleton.2 rfl⟩

theorem live_of_missing {e : EntryPoint} (missing : t.firstMissing? = some e)
    (h : HostProgram ω) (requests : List Request) (w : ω) :
    live h t requests w = (.error (.unsupported e.name), w) := by
  simp only [live, create, missing]

theorem create_recorded (fit : t.firstMissing? = none) (h : HostProgram ω) (w : ω)
    (created : t.offers .create = true → (h.create t.userData w).1 = true) :
    ∃ world, create h.recorded t ⟨w, []⟩ =
        (.ok ⟨t.userData, t.offers .destroy⟩, ⟨world, t.opening⟩) ∧
      h.replay? t.opening w = some world := by
  cases offered : t.offers .create with
  | false =>
    refine ⟨w, ?_, ?_⟩
    · simp [create, fit, offered, Table.opening]
    · simp [Table.opening, offered, HostProgram.replay?]
  | true =>
    have answered := created offered
    refine ⟨(h.create t.userData w).2, ?_, ?_⟩
    · simp [create, fit, offered, Table.opening, HostProgram.recorded, HostRecord.call, answered]
    · rw [Table.opening, if_pos offered, HostProgram.replay?_singleton]
      exact HostProgram.reply_eq_some.2 (Prod.ext answered rfl)

/-- A core is faithful to its table. A table is not called at all that lacks one of the three entry
points a core cannot do without, and the first one it lacks is named; one that refuses to create a
core is not called again. Else each request is one call, or none if it cannot be put to the host,
and the host's answer is its outcome. -/
theorem live_faithful (h : HostProgram ω) (t : Table) (requests : List Request) (w : ω) :
    let r := live h.recorded t requests ⟨w, []⟩
    (t.offers .runFrame = false → r = (.error (.unsupported "run_frame"), ⟨w, []⟩)) ∧
      (t.offers .runFrame = true → t.offers .setOutputSize = false →
        r = (.error (.unsupported "set_output_size"), ⟨w, []⟩)) ∧
      (t.offers .runFrame = true → t.offers .setOutputSize = true → t.offers .loadRom = false →
        r = (.error (.unsupported "load_rom"), ⟨w, []⟩)) ∧
      (t.offers .runFrame = true → t.offers .setOutputSize = true → t.offers .loadRom = true →
        (∀ world, t.offers .create = true → h.create t.userData w = (false, world) →
          r = (.error (.createFailed "host core refused to initialize"),
            ⟨world, [(.create t.userData, some false)]⟩)) ∧
        ((t.offers .create = true → (h.create t.userData w).1 = true) →
          ∃ outcomes world,
            r = (.ok outcomes,
              ⟨world, t.opening ++ seen t.userData requests outcomes ++ t.closing⟩) ∧
            List.Forall₂ (Request.Settles t.userData) requests outcomes ∧
            h.replay? (t.opening ++ seen t.userData requests outcomes ++ t.closing) w =
              some world)) := by
  have first := t.firstMissing?_eq
  refine ⟨fun noFrame => ?_, fun frame noSize => ?_, fun frame size noRom => ?_,
    fun frame size rom => ?_⟩
  · rw [if_pos noFrame] at first
    exact live_of_missing first ..
  · rw [if_neg (by simp [frame]), if_pos noSize] at first
    exact live_of_missing first ..
  · rw [if_neg (by simp [frame]), if_neg (by simp [size]), if_pos noRom] at first
    exact live_of_missing first ..
  · have fit : t.firstMissing? = none := by simp [first, frame, size, rom]
    refine ⟨fun world offered refused => ?_, fun created => ?_⟩
    · simp [live, create, fit, offered, HostProgram.recorded, HostRecord.call, refused, refusal]
    · obtain ⟨first, made, opened⟩ := create_recorded fit h w created
      obtain ⟨outcomes, second, driven, settled, replied⟩ :=
        drive_recorded h ⟨t.userData, t.offers .destroy⟩ requests ⟨first, t.opening⟩
      have hd : (⟨t.userData, t.offers .destroy⟩ : Core).hasDestroy = t.offers .destroy := rfl
      obtain ⟨last, dropped, closed⟩ :=
        drop_recorded hd rfl h ⟨second, t.opening ++ seen t.userData requests outcomes⟩
      refine ⟨outcomes, last, ?_, settled, ?_⟩
      · simp only [live, made, driven, dropped]
      · rw [HostProgram.replay?_append, HostProgram.replay?_append, opened, Option.bind_some,
          replied, Option.bind_some, closed]

theorem live_faithful_of_script :
    let h := Lockstep.HostScript.program
    let t : Table := { userData := 5, offers := (· != .destroy) }
    let requests : List Request :=
      [.resize ⟨640, 480⟩, .frame 7, .load ⟨[0x61, 0]⟩, .load ⟨[0x61]⟩, .resize ⟨320, 240⟩]
    (∃ outcomes world,
      live h.recorded t requests ⟨{ rejectSizes := 1 }, []⟩ =
        (.ok outcomes, ⟨world, t.opening ++ seen 5 requests outcomes ++ t.closing⟩) ∧
      List.Forall₂ (Request.Settles 5) requests outcomes) ∧
    live h.recorded { t with offers := (· == .loadRom) } requests ⟨{}, []⟩ =
      (.error (.unsupported "run_frame"), ⟨{}, []⟩) ∧
    live h.recorded { t with offers := (· == .runFrame) } requests ⟨{}, []⟩ =
      (.error (.unsupported "set_output_size"), ⟨{}, []⟩) ∧
    live h.recorded { t with offers := (· != .loadRom) } requests ⟨{}, []⟩ =
      (.error (.unsupported "load_rom"), ⟨{}, []⟩) ∧
    live h.recorded t requests ⟨{ creates := false }, []⟩ =
      (.error (.createFailed "host core refused to initialize"),
        ⟨{ creates := false }, [(.create 5, some false)]⟩) := by
  intro h t requests
  refine ⟨?_, ?_, ?_, ?_, ?_⟩
  · obtain ⟨outcomes, world, same, settled, -⟩ :=
      ((live_faithful h t requests { rejectSizes := 1 }).2.2.2 rfl rfl rfl).2 fun _ => rfl
    exact ⟨outcomes, world, same, settled⟩
  · exact (live_faithful h _ requests {}).1 rfl
  · exact (live_faithful h _ requests {}).2.1 rfl rfl
  · exact (live_faithful h _ requests {}).2.2.1 rfl rfl rfl
  · exact ((live_faithful h t requests { creates := false }).2.2.2 rfl rfl rfl).1 _ rfl rfl

end Core

end EmulatorHost.Foreign

-- How a recasting command ends. It succeeds exactly if every file is read and
-- every unit is done, whatever its streams refuse. If the stream of errors
-- takes every line, the files that cannot be read have no part in anything
-- else: without them the same units go through the same run, and only their
-- own error lines are missing.
import Recast.Command.Basic
import Recast.Disk.Tree
import Recast.Proofs.Batch.Success
import Recast.Proofs.Session

namespace Recast

variable {V W D σ δ : Type}

/-! ## Lines of errors -/

/-- A line leaves alone what every text leaves alone. -/
theorem TextStream.Leaves.putLine {stream : TextStream (StateM W)} {view : W → D}
    (h : stream.Leaves view) (s : String) : Recast.Leaves view (Command.putLine stream s).run :=
  fun w => h.put (s ++ "\n") w

theorem TextStream.Leaves.commandLines {stream : TextStream (StateM W)} {view : W → D}
    (h : stream.Leaves view) (texts : List String) :
    Recast.Leaves view (Command.putLines stream texts).run := by
  induction texts with
  | nil => exact fun _ => rfl
  | cons s rest ih => exact (h.putLine s).attempt_bind fun _ => ih

/-- The lines of some texts, one after the other. -/
def Command.textOfLines (texts : List String) : String := String.join (texts.map (· ++ "\n"))

/-- A stream that takes every text takes every line, and then it holds the
line, if it keeps texts. -/
theorem TextStream.Accepts.putLine {stream : TextStream (StateM W)} (h : stream.Accepts)
    (s : String) (w : W) : ∃ w', (Command.putLine stream s).run.run w = (.ok (), w') ∧
      ∀ text, stream.Keeps text → text w' = text w ++ (s ++ "\n") := by
  have hput : (stream.put (s ++ "\n")).run.run w =
      (.ok (), ((stream.put (s ++ "\n")).run.run w).2) := Prod.ext (h.put _ w) rfl
  refine ⟨_, attempt_adapt_of_ok hput Command.Halt.broken, ?_⟩
  intro text hkeeps
  obtain ⟨w', hkept, htext⟩ := hkeeps.put (s ++ "\n") w
  rw [hkept]
  exact htext

theorem TextStream.Accepts.commandLines {stream : TextStream (StateM W)} (h : stream.Accepts)
    (texts : List String) (w : W) :
    ∃ w', (Command.putLines stream texts).run.run w = (.ok (), w') ∧
      ∀ text, stream.Keeps text → text w' = text w ++ Command.textOfLines texts := by
  induction texts generalizing w with
  | nil => exact ⟨w, rfl, fun _ _ => String.append_empty.symm⟩
  | cons s rest ih =>
    obtain ⟨w₁, hline, htext⟩ := h.putLine s w
    obtain ⟨w', hrest, htext'⟩ := ih w₁
    refine ⟨w', ?_, ?_⟩
    · unfold Command.putLines
      rw [attempt_bind_of_ok hline]
      exact hrest
    · intro text hkeeps
      rw [htext' text hkeeps, htext text hkeeps, String.append_assoc]
      unfold Command.textOfLines
      rw [List.map_cons, String.join_cons]

/-! ## The end of a command -/

namespace Command

/-- What a command tells of a run: the failures, one line for each. -/
def told : Except RunError Batch.Summary → List String
  | .error _ => []
  | .ok summary => summary.failures.map (·.2)

/-- How a command ends, from how its run came out. -/
def verdict (allRead : Bool) : Except RunError Batch.Summary → Except Halt Bool
  | .error e => .error (.failed (.run e))
  | .ok summary => .ok (summary.success && allRead)

theorem verdict_ok_true {allRead : Bool} {out : Except RunError Batch.Summary} :
    verdict allRead out = .ok true ↔
      allRead = true ∧ ∃ summary, out = .ok summary ∧ summary.success = true := by
  cases out with
  | error e => simp [verdict]
  | ok summary => simp [verdict, and_comm]

/-- Tells of a run, and then how the command ends. -/
def answer [Monad m] (err : TextStream m) (allRead : Bool) (out : Except RunError Batch.Summary) :
    Attempt m Halt Bool := do
  putLines err (told out)
  ExceptT.mk (pure (verdict allRead out))

/-- How the run over the units of some files comes out, before it is told of. -/
def outcomeOf [Monad m] (world : World m) (inputs : List Path) (setup : Setup m)
    (dest : Destination m) (options : Batch.Options) :
    Attempt m Halt (Except RunError Batch.Summary) := do
  let (units, _) ← readInputs world inputs
  let (result, _) ← ExceptT.lift (Batch.run setup dest options .never .empty units)
  return result

/-- A command reads its files, runs, and answers. -/
theorem runInputs_run {world : World (StateM V)} {inputs : List Path} {setup : Setup (StateM V)}
    {dest : Destination (StateM V)} {options : Batch.Options} {units : List SourceUnit}
    {unread : Nat}
    {out : Except RunError Batch.Summary} {bound : Bindings} {v v₁ v₂ : V}
    (hread : (readInputs world inputs).run.run v = (.ok (units, unread), v₁))
    (hrun : (Batch.run setup dest options .never .empty units).run v₁ = ((out, bound), v₂)) :
    (runInputs world inputs setup dest options).run.run v =
        (answer world.err (unread == 0) out).run.run v₂ ∧
      ((outcomeOf world inputs setup dest options).run.run v).1 = .ok out := by
  constructor
  · unfold runInputs
    rw [attempt_bind_of_ok hread, ExceptT.run_bind_lift, run_bind_of hrun]
    cases out with
    | error e => rfl
    | ok summary => rfl
  · unfold outcomeOf
    rw [attempt_bind_of_ok hread, ExceptT.run_bind_lift, run_bind_of hrun]
    rfl

/-- A command that breaks off at its files does not run. -/
theorem runInputs_of_broken {world : World (StateM V)} {inputs : List Path} {halt : Halt} {v v₁ : V}
    (hread : (readInputs world inputs).run.run v = (.error halt, v₁)) (setup : Setup (StateM V))
    (dest : Destination (StateM V)) (options : Batch.Options) :
    (runInputs world inputs setup dest options).run.run v = (.error halt, v₁) := by
  unfold runInputs
  exact attempt_bind_of_error hread

section

variable {err : TextStream (StateM W)} {allRead : Bool} {out : Except RunError Batch.Summary}
  {w : W}

theorem answer_leaves {view : W → D} (h : err.Leaves view) (allRead : Bool)
    (out : Except RunError Batch.Summary) : Leaves view (answer err allRead out).run :=
  (h.commandLines (told out)).attempt_bind fun _ _ => rfl

/-- Lines that are refused make no success. -/
theorem verdict_of_answer (h : ((answer err allRead out).run.run w).1 = .ok true) :
    verdict allRead out = .ok true := by
  obtain ⟨_, _, _, hlast⟩ := attempt_bind_ok (Prod.ext h rfl)
  exact congrArg Prod.fst hlast

theorem answer_of_nothing_told (h : told out = []) :
    (answer err allRead out).run.run w = (verdict allRead out, w) := by
  unfold answer
  rw [h]
  rfl

theorem answer_of_accepts (h : err.Accepts) (allRead : Bool) (out : Except RunError Batch.Summary)
    (w : W) : ∃ w', (answer err allRead out).run.run w = (verdict allRead out, w') ∧
      ∀ text, err.Keeps text → text w' = text w ++ textOfLines (told out) := by
  obtain ⟨w', hlines, htext⟩ := h.commandLines (told out) w
  refine ⟨w', ?_, htext⟩
  unfold answer
  rw [attempt_bind_of_ok hlines]
  rfl

end

end Command

/-! ## Reading files -/

/-- Reading a file leaves the machine as it is. -/
def Disk.LooksOnly (disk : Disk (StateM δ)) : Prop := ∀ p d, ((disk.read p).run.run d).2 = d

/-- The unit that a file holds on a machine, or why it cannot be read. -/
def Disk.unitOn (disk : Disk (StateM δ)) (explain : String → String) (d : δ) (file : Path) :
    Except ReadError SourceUnit :=
  ((disk.readUnit explain file).run.run d).1

theorem Disk.readUnit_alike {R : V → W → Prop} {disk : Disk (StateM V)} {other : Disk (StateM W)}
    {file : Path} (h : Alike R (disk.read file).run (other.read file).run)
    (explain : String → String) :
    Alike R (disk.readUnit explain file).run (other.readUnit explain file).run := by
  unfold Disk.readUnit
  split
  · exact Alike.pure _
  · apply h.bind
    intro result
    cases result with
    | error cause => exact Alike.pure _
    | ok text => exact Alike.pure _

namespace Command

/-- The world of a command on a machine. The lines of errors go to a page, and
all else is on the machine. -/
def onMachine (disk : Disk (StateM δ)) (out : TextStream (StateM δ)) (err : TextStream (StateM σ))
    (surroundings : Surroundings) (root : Path) (wording : Wording) :
    World (StateM (Recast.World σ (Session δ))) :=
  ⟨disk.onMachine.onRest, out.onMachine.onRest, err.onPage, surroundings, root, wording⟩

/-- What is told of a file that cannot be read. -/
def complaint? : Except ReadError SourceUnit → Option String
  | .ok _ => none
  | .error e => some e.message

section

variable (disk : Disk (StateM δ)) (explain : String → String) (d : δ) (files : List Path)

/-- The units of the files that can be read. -/
def unitsOn : List SourceUnit := files.filterMap fun file => (disk.unitOn explain d file).toOption

/-- The files that can be read. -/
def readable : List Path := files.filter fun file => (disk.unitOn explain d file).isOk

/-- The lines for the files that cannot be read. -/
def complaints : String :=
  textOfLines (files.filterMap fun file => complaint? (disk.unitOn explain d file))

/-- The count of files that cannot be read. -/
def unreadOn : Nat := files.countP fun file => !(disk.unitOn explain d file).isOk

/-- A file that can be read adds its unit, and nothing else. -/
theorem cons_of_read {file : Path} {unit : SourceUnit} (h : disk.unitOn explain d file = .ok unit) :
    unitsOn disk explain d (file :: files) = unit :: unitsOn disk explain d files ∧
      unreadOn disk explain d (file :: files) = unreadOn disk explain d files ∧
      complaints disk explain d (file :: files) = complaints disk explain d files := by
  refine ⟨List.filterMap_cons_some (by rw [h]; rfl),
    List.countP_cons_of_neg (by rw [h]; exact Bool.false_ne_true), ?_⟩
  simp [complaints, complaint?, h]

/-- A file that cannot be read adds its line, and nothing else. -/
theorem cons_of_unread {file : Path} {e : ReadError} (h : disk.unitOn explain d file = .error e) :
    unitsOn disk explain d (file :: files) = unitsOn disk explain d files ∧
      unreadOn disk explain d (file :: files) = unreadOn disk explain d files + 1 ∧
      complaints disk explain d (file :: files) =
        e.message ++ "\n" ++ complaints disk explain d files := by
  refine ⟨List.filterMap_cons_none (by rw [h]; rfl), List.countP_cons_of_pos (by rw [h]; rfl), ?_⟩
  simp [complaints, complaint?, textOfLines, h]

theorem unreadOn_eq_zero : unreadOn disk explain d files = 0 ↔
    ∀ file ∈ files, (disk.unitOn explain d file).isOk := by
  simp [unreadOn]

theorem unreadOn_readable : unreadOn disk explain d (readable disk explain d files) = 0 := by
  rw [unreadOn_eq_zero]
  intro file hfile
  exact (List.mem_filter.mp hfile).2

theorem length_readable :
    (readable disk explain d files).length + unreadOn disk explain d files = files.length := by
  unfold readable unreadOn
  rw [← List.countP_eq_length_filter,
    List.length_eq_countP_add_countP (l := files) fun file => (disk.unitOn explain d file).isOk]
  simp

theorem unitsOn_readable :
    unitsOn disk explain d (readable disk explain d files) = unitsOn disk explain d files := by
  unfold unitsOn readable
  rw [List.filterMap_filter]
  congr 1
  funext file
  cases disk.unitOn explain d file with
  | ok unit => rfl
  | error e => rfl

theorem complaints_readable : complaints disk explain d (readable disk explain d files) = "" := by
  have hnone : (readable disk explain d files).filterMap
      (fun file => complaint? (disk.unitOn explain d file)) = [] := by
    rw [List.filterMap_eq_nil_iff]
    intro file hfile
    have hok := (List.mem_filter.mp hfile).2
    cases hunit : disk.unitOn explain d file with
    | ok unit => rfl
    | error e =>
      rw [hunit] at hok
      cases hok
  unfold complaints
  rw [hnone]
  rfl

end

section

variable {world : World (StateM V)} {file : Path} {files : List Path} {v v₁ v₂ v₃ : V}
  {result : Except Halt (List SourceUnit × Nat)}

theorem readInputs_of_read {unit : SourceUnit}
    (hunit : (world.disk.readUnit world.wording.unit file).run.run v = (.ok unit, v₁))
    (hrest : (readInputs world files).run.run v₁ = (result, v₂)) :
    (readInputs world (file :: files)).run.run v =
      (result.map fun (units, unread) => (unit :: units, unread), v₂) := by
  unfold readInputs
  rw [ExceptT.run_bind_lift, run_bind_of hunit]
  dsimp only
  rw [ExceptT.run_bind, run_bind_of hrest]
  cases result with
  | error halt => rfl
  | ok read => rfl

theorem readInputs_of_unread {e : ReadError}
    (hunit : (world.disk.readUnit world.wording.unit file).run.run v = (.error e, v₁))
    (hline : (putLine world.err e.message).run.run v₁ = (.ok (), v₂))
    (hrest : (readInputs world files).run.run v₂ = (result, v₃)) :
    (readInputs world (file :: files)).run.run v =
      (result.map fun (units, unread) => (units, unread + 1), v₃) := by
  unfold readInputs
  rw [ExceptT.run_bind_lift, run_bind_of hunit]
  dsimp only
  rw [attempt_bind_of_ok hline, ExceptT.run_bind, run_bind_of hrest]
  cases result with
  | error halt => rfl
  | ok read => rfl

/-- If the line for a file is refused, no other file is looked at. -/
theorem readInputs_of_refused {e : ReadError} {halt : Halt}
    (hunit : (world.disk.readUnit world.wording.unit file).run.run v = (.error e, v₁))
    (hline : (putLine world.err e.message).run.run v₁ = (.error halt, v₂)) (files : List Path) :
    (readInputs world (file :: files)).run.run v = (.error halt, v₂) := by
  unfold readInputs
  rw [ExceptT.run_bind_lift, run_bind_of hunit]
  dsimp only
  exact attempt_bind_of_error hline

end

variable {disk : Disk (StateM δ)} (hdisk : disk.LooksOnly) (out : TextStream (StateM δ))
  (err : TextStream (StateM σ)) (surroundings : Surroundings) (root : Path) (wording : Wording)
include hdisk

theorem readUnit_onMachine (file : Path) (w : Recast.World σ (Session δ)) :
    ((onMachine disk out err surroundings root wording).disk.readUnit wording.unit file).run.run w =
      (disk.unitOn wording.unit w.rest.machine file, w) := by
  have hread : Alike (fun w' d => w' = w ∧ d = w.rest.machine)
      ((onMachine disk out err surroundings root wording).disk.read file).run
        (disk.read file).run := by
    rintro w' d ⟨hw, hd⟩
    rw [hw, hd]
    have hlooks := hdisk file w.rest.machine
    refine ⟨rfl, ?_, hlooks⟩
    have hafter :
        (((onMachine disk out err surroundings root wording).disk.read file).run.run w).2 =
        { w with rest := { w.rest with machine := ((disk.read file).run.run w.rest.machine).2 } } :=
      rfl
    rw [hafter, hlooks]
  obtain ⟨hresult, hsame, _⟩ :=
    Disk.readUnit_alike hread wording.unit w w.rest.machine ⟨rfl, rfl⟩
  exact Prod.ext hresult hsame

/-- Either the units are those of the files that can be read, and for each of
the others a line is written, or such a line is refused and the command breaks
off. Nothing else happens. -/
theorem readInputs_run (files : List Path) (w : Recast.World σ (Session δ)) :
    ∃ w₁, w₁.rest = w.rest ∧
      ((readInputs (onMachine disk out err surroundings root wording) files).run.run w =
          (.ok (unitsOn disk wording.unit w.rest.machine files,
            unreadOn disk wording.unit w.rest.machine files), w₁) ∧
        (∀ text, err.Keeps text →
          text w₁.page = text w.page ++ complaints disk wording.unit w.rest.machine files) ∨
      unreadOn disk wording.unit w.rest.machine files ≠ 0 ∧ ¬ err.Accepts ∧
        ∃ cause, (readInputs (onMachine disk out err surroundings root wording) files).run.run w =
          (.error (.broken cause), w₁)) := by
  induction files generalizing w with
  | nil => exact ⟨w, rfl, .inl ⟨rfl, fun text _ => String.append_empty.symm⟩⟩
  | cons file rest ih =>
    have hunit := readUnit_onMachine hdisk out err surroundings root wording file w
    cases hfile : disk.unitOn wording.unit w.rest.machine file with
    | ok unit =>
      rw [hfile] at hunit
      obtain ⟨hunits, hunread, hcomplaints⟩ :=
        cons_of_read disk wording.unit w.rest.machine rest hfile
      rw [hunits, hunread, hcomplaints]
      obtain ⟨w₁, hsame, ⟨hrest, hpage⟩ | ⟨hsome, hrefuses, cause, hrest⟩⟩ := ih w
      · exact ⟨w₁, hsame, .inl ⟨readInputs_of_read hunit hrest, hpage⟩⟩
      · exact ⟨w₁, hsame, .inr ⟨hsome, hrefuses, cause, readInputs_of_read hunit hrest⟩⟩
    | error e =>
      rw [hfile] at hunit
      obtain ⟨hunits, hunread, hcomplaints⟩ :=
        cons_of_unread disk wording.unit w.rest.machine rest hfile
      rw [hunits, hunread, hcomplaints]
      have hkept := (err.onPage_leaves (τ := Session δ)).putLine e.message w
      rcases hline : (putLine err.onPage e.message).run.run w with ⟨halt | _, w'⟩
      · rw [hline] at hkept
        obtain ⟨cause, rfl, _⟩ := attempt_adapt_error hline
        refine ⟨w', hkept, .inr ⟨Nat.succ_ne_zero _, ?_, cause,
          readInputs_of_refused hunit hline rest⟩⟩
        intro haccepts
        obtain ⟨_, htaken, _⟩ := haccepts.onPage.putLine e.message w
        cases hline.symm.trans htaken
      · rw [hline] at hkept
        obtain ⟨w₁, hsame, ⟨hrest, hpage⟩ | ⟨_, hrefuses, cause, hrest⟩⟩ := ih w'
        · rw [hkept] at hrest hsame hpage
          refine ⟨w₁, hsame, .inl ⟨readInputs_of_unread hunit hline hrest, ?_⟩⟩
          intro text hkeeps
          obtain ⟨_, htaken, htext⟩ := hkeeps.accepts.onPage.putLine e.message w
          cases hline.symm.trans htaken
          rw [hpage text hkeeps, htext _ hkeeps.onPage, String.append_assoc]
        · exact ⟨w₁, hsame.trans hkept, .inr ⟨Nat.succ_ne_zero _, hrefuses, cause,
            readInputs_of_unread hunit hline hrest⟩⟩

omit hdisk

/-! ## What a command has loaded -/

/-- The settings, the renderer and the store of a command, which were all had
in turn, from a state on. -/
structure Loaded [MonadStateOf MarkerMap (StateM V)] (world : World (StateM V))
    (args : TranslateArgs) (start : V) where
  stored : Settings
  config : RunConfig
  renderer : Renderer
  store : MarkerStore (StateM V)
  /-- The states behind the settings, the configuration and the store. -/
  settled : V
  configured : V
  opened : V
  settings_loaded : (Settings.load world.disk world.wording.settings world.surroundings
    world.root).run.run start = (.ok stored, settled)
  config_loaded : ((stored.merge args.settings).runConfig world.disk world.root).run.run settled =
    (.ok config, configured)
  renderer_found : Renderer.forLanguage? args.language = some renderer
  store_opened : (openStore world args config).run.run configured = (.ok store, opened)

namespace Loaded

section

variable [MonadStateOf MarkerMap (StateM V)] [MonadStateOf Written (StateM V)]
  {world : World (StateM V)} {args : TranslateArgs} {start : V} (loaded : Loaded world args start)

def settings : Settings := loaded.stored.merge args.settings

def setup : Setup (StateM V) :=
  ⟨loaded.config, loaded.renderer, loaded.config.sink world.err loaded.store⟩

def dest : Destination (StateM V) := destination world loaded.settings loaded.renderer

def options : Batch.Options := ⟨loaded.settings.parallel, loaded.settings.keepGoing⟩

/-- How the command ends, and what it leaves, with these inputs in the place of
its own. -/
def run (_ : Loaded world args start) (inputs : List Path) : Except Halt Bool × V :=
  (translate world { args with inputs := inputs }).run.run start

/-- The run over some units. -/
def runUnits (units : List SourceUnit) : StateM V (Except RunError Batch.Summary × Bindings) :=
  Batch.run loaded.setup loaded.dest loaded.options .never .empty units

/-- How the run over the units of these inputs comes out, before it is told of,
if the command comes so far. -/
def outcome (inputs : List Path) : Except Halt (Except RunError Batch.Summary) :=
  ((outcomeOf world inputs loaded.setup loaded.dest loaded.options).run.run loaded.opened).1

/-- A command that has loaded all it needs runs its inputs. -/
theorem translate_run : (translate world args).run.run start =
    (runInputs world args.inputs loaded.setup loaded.dest loaded.options).run.run
      loaded.opened := by
  unfold translate
  rw [attempt_bind_of_ok (attempt_adapt_of_ok loaded.settings_loaded _),
    attempt_bind_of_ok (attempt_adapt_of_ok loaded.config_loaded _), loaded.renderer_found]
  dsimp only
  rw [attempt_bind_of_ok (attempt_adapt_of_ok loaded.store_opened _)]
  rfl

/-- What is loaded does not depend on the inputs. -/
def withInputs (inputs : List Path) : Loaded world { args with inputs := inputs } start :=
  ⟨loaded.stored, loaded.config, loaded.renderer, loaded.store, loaded.settled, loaded.configured,
    loaded.opened, loaded.settings_loaded, loaded.config_loaded, loaded.renderer_found,
    loaded.store_opened⟩

end

variable {disk : Disk (StateM δ)} {out : TextStream (StateM δ)} {err : TextStream (StateM σ)}
  {surroundings : Surroundings} {root : Path} {wording : Wording} {args : TranslateArgs}
  {start : Recast.World σ (Session δ)}
  (loaded : Loaded (onMachine disk out err surroundings root wording) args start)

/-- The markers are kept in the session, beside the page. -/
theorem setup_onMachine : ∃ store : MarkerStore (StateM (Session δ)),
    loaded.setup = World.setup loaded.config loaded.renderer err store := by
  have hstore : ∃ store : MarkerStore (StateM (Session δ)), loaded.store = store.onRest := by
    have hopened := loaded.store_opened
    unfold openStore at hopened
    split at hopened
    · obtain ⟨markers, w₁, _, hopened⟩ := attempt_bind_ok hopened
      obtain ⟨_, w₂, _, hopened⟩ := attempt_bind_ok hopened
      injection hopened with hstore _
      injection hstore with hstore
      rw [← hstore]
      exact ⟨_, MarkerFile.store_onRest disk.onMachine _⟩
    · injection hopened with hstore _
      injection hstore with hstore
      rw [← hstore]
      exact ⟨.nowhere, rfl⟩
  obtain ⟨store, hstore⟩ := hstore
  refine ⟨store, ?_⟩
  unfold Loaded.setup
  rw [hstore]
  rfl

theorem dest_onMachine : ∃ dest : Destination (StateM (Session δ)), loaded.dest = dest.onRest := by
  unfold Loaded.dest destination
  split
  · exact ⟨_, Destination.stream_onRest out.onMachine⟩
  · exact ⟨_, Destination.directory_onRest disk.onMachine _⟩

/-- The page has no part in what the store and the destination do. -/
theorem separates : loaded.setup.Separates loaded.dest World.rest := by
  obtain ⟨store, hsetup⟩ := loaded.setup_onMachine
  obtain ⟨dest, hdest⟩ := loaded.dest_onMachine
  rw [hsetup, hdest]
  exact World.separates loaded.config loaded.renderer store dest err

theorem linesOn {text : σ → String} (h : err.Keeps text) :
    loaded.setup.LinesOn loaded.dest fun w => text w.page := by
  obtain ⟨store, hsetup⟩ := loaded.setup_onMachine
  obtain ⟨dest, hdest⟩ := loaded.dest_onMachine
  rw [hsetup, hdest]
  exact World.linesOn loaded.config loaded.renderer store dest h

/-- A command on a machine reads its files, takes their units through a run, and
answers, or it breaks off at the line for a file. -/
theorem inputs_run (hdisk : disk.LooksOnly) (inputs : List Path) :
    ∃ w₁, w₁.rest = loaded.opened.rest ∧
      ((∀ text, err.Keeps text → text w₁.page = text loaded.opened.page ++
          complaints disk wording.unit loaded.opened.rest.machine inputs) ∧
        (∃ result bound w₂,
          (loaded.runUnits (unitsOn disk wording.unit loaded.opened.rest.machine inputs)).run w₁ =
            ((result, bound), w₂) ∧
          loaded.run inputs = (answer err.onPage
            (unreadOn disk wording.unit loaded.opened.rest.machine inputs == 0) result).run.run w₂ ∧
          loaded.outcome inputs = .ok result) ∨
      unreadOn disk wording.unit loaded.opened.rest.machine inputs ≠ 0 ∧ ¬ err.Accepts ∧
        ∃ cause, (loaded.run inputs).1 = .error (.broken cause)) := by
  have htranslate := (loaded.withInputs inputs).translate_run
  obtain ⟨w₁, hsame, ⟨hread, hpage⟩ | ⟨hsome, hrefuses, cause, hread⟩⟩ :=
    readInputs_run hdisk out err surroundings root wording inputs loaded.opened
  · rcases hbatch :
      (loaded.runUnits (unitsOn disk wording.unit loaded.opened.rest.machine inputs)).run w₁
      with ⟨⟨result, bound⟩, w₂⟩
    obtain ⟨hrun, houtcome⟩ := runInputs_run hread hbatch
    exact ⟨w₁, hsame, .inl ⟨hpage, result, bound, w₂, hbatch, htranslate.trans hrun, houtcome⟩⟩
  · have hrun := runInputs_of_broken hread loaded.setup loaded.dest loaded.options
    exact ⟨w₁, hsame, .inr ⟨hsome, hrefuses, cause,
      congrArg Prod.fst (htranslate.trans hrun)⟩⟩

/-- If every file can be read, or the stream of errors takes every text, the
command does not break off at a file. -/
theorem inputs_run_of_taken (hdisk : disk.LooksOnly) {inputs : List Path}
    (htaken : unreadOn disk wording.unit loaded.opened.rest.machine inputs = 0 ∨ err.Accepts) :
    ∃ w₁ w₂ result bound, w₁.rest = loaded.opened.rest ∧
      (∀ text, err.Keeps text → text w₁.page =
        text loaded.opened.page ++ complaints disk wording.unit loaded.opened.rest.machine inputs) ∧
      (loaded.runUnits (unitsOn disk wording.unit loaded.opened.rest.machine inputs)).run w₁ =
        ((result, bound), w₂) ∧
      loaded.run inputs = (answer err.onPage
        (unreadOn disk wording.unit loaded.opened.rest.machine inputs == 0) result).run.run w₂ ∧
      loaded.outcome inputs = .ok result := by
  obtain ⟨w₁, hsame, ⟨hpage, result, bound, w₂, hbatch, hrun, houtcome⟩ | ⟨hsome, hrefuses, _⟩⟩ :=
    loaded.inputs_run hdisk inputs
  · exact ⟨w₁, w₂, result, bound, hsame, hpage, hbatch, hrun, houtcome⟩
  · rcases htaken with hread | haccepts
    · exact absurd hread hsome
    · exact absurd haccepts hrefuses

/-- The run comes out the same from worlds with the same rest. -/
theorem runUnits_same (units : List SourceUnit) {w w' : Recast.World σ (Session δ)}
    (h : w.rest = w'.rest) :
    ((loaded.runUnits units).run w).1 = ((loaded.runUnits units).run w').1 ∧
      ((loaded.runUnits units).run w).2.rest = ((loaded.runUnits units).run w').2.rest :=
  loaded.separates.worker_self.run loaded.options .never .empty units w w' h

/-- A command succeeds exactly if every file is read and the run over the units
succeeds. -/
theorem succeeds_iff_run (hdisk : disk.LooksOnly) (inputs : List Path) :
    (loaded.run inputs).1 = .ok true ↔
      unreadOn disk wording.unit loaded.opened.rest.machine inputs = 0 ∧
        ∃ summary, ((loaded.runUnits (unitsOn disk wording.unit loaded.opened.rest.machine
          inputs)).run loaded.opened).1.1 = .ok summary ∧ summary.success = true := by
  obtain ⟨w₁, hsame, ⟨_, result, bound, w₂, hbatch, hrun, houtcome⟩ | ⟨hsome, _, cause, hrun⟩⟩ :=
    loaded.inputs_run hdisk inputs
  · have hresult := (loaded.runUnits_same
      (unitsOn disk wording.unit loaded.opened.rest.machine inputs) hsame).1
    rw [hbatch] at hresult
    rw [hrun, ← hresult]
    dsimp only
    constructor
    · intro hanswer
      obtain ⟨hread, summary, rfl, hsuccess⟩ := verdict_ok_true.mp (verdict_of_answer hanswer)
      exact ⟨beq_iff_eq.mp hread, summary, rfl, hsuccess⟩
    · rintro ⟨hread, summary, rfl, hsuccess⟩
      -- a run that succeeds has nothing to tell, so no line can be refused
      have hnone : told (.ok summary) = [] := List.map_eq_nil_iff.mpr
        (loaded.separates.failures_of_success (congrArg Prod.fst hresult.symm) hsuccess)
      rw [answer_of_nothing_told hnone]
      exact verdict_ok_true.mpr ⟨beq_iff_eq.mpr hread, summary, rfl, hsuccess⟩
  · rw [hrun]
    exact ⟨nofun, fun h => absurd h.1 hsome⟩

/-- A command succeeds exactly if every file is read and every unit is done. -/
theorem succeeds_iff (hdisk : disk.LooksOnly) :
    (loaded.run args.inputs).1 = .ok true ↔
      (∀ file ∈ args.inputs, (disk.unitOn wording.unit loaded.opened.rest.machine file).isOk) ∧
        ∀ result ∈ ((loaded.setup.processEach loaded.dest .empty (unitsOn disk wording.unit
            loaded.opened.rest.machine args.inputs)).run loaded.opened).1,
          ∃ report, result = .ok report ∧ report.trace.getLast? = some .done := by
  have hunits := loaded.separates.run_success_iff loaded.options .empty
    (unitsOn disk wording.unit loaded.opened.rest.machine args.inputs) loaded.opened
  rw [loaded.succeeds_iff_run hdisk, unreadOn_eq_zero, ← hunits]
  rfl

/-- A command that succeeds has a report of every unit. -/
theorem reports_of_success (hdisk : disk.LooksOnly) (h : (loaded.run args.inputs).1 = .ok true) :
    ∃ summary, loaded.outcome args.inputs = .ok (.ok summary) ∧
      ((loaded.setup.processEach loaded.dest .empty (unitsOn disk wording.unit
        loaded.opened.rest.machine args.inputs)).run loaded.opened).1 =
        summary.reports.map .ok := by
  obtain ⟨hread, summary, hresult, hsuccess⟩ := (loaded.succeeds_iff_run hdisk args.inputs).mp h
  obtain ⟨w₁, w₂, result, bound, hsame, _, hbatch, _, houtcome⟩ :=
    loaded.inputs_run_of_taken hdisk (.inl hread)
  have hequal := (loaded.runUnits_same
    (unitsOn disk wording.unit loaded.opened.rest.machine args.inputs) hsame).1
  rw [hbatch] at hequal
  rw [← hequal] at hresult
  cases hresult
  exact ⟨summary, houtcome, loaded.separates.reports_of_success
    (congrArg Prod.fst hequal.symm) hsuccess⟩

/-- Without the files that cannot be read, the run starts with the same rest and
comes out the same. If the stream of errors keeps its lines, only those for
these files are missing. -/
theorem runs_without_unreadable (hdisk : disk.LooksOnly) (haccepts : err.Accepts)
    (inputs : List Path) : ∃ w₂ v₂ result,
      loaded.outcome inputs = .ok result ∧
      loaded.outcome (readable disk wording.unit loaded.opened.rest.machine inputs) = .ok result ∧
      loaded.run inputs = (answer err.onPage
        (unreadOn disk wording.unit loaded.opened.rest.machine inputs == 0) result).run.run w₂ ∧
      loaded.run (readable disk wording.unit loaded.opened.rest.machine inputs) =
        (answer err.onPage true result).run.run v₂ ∧
      v₂.rest = w₂.rest ∧
      ∀ text, err.Keeps text → Inserted World.rest (fun w => text w.page)
        (text loaded.opened.page) (complaints disk wording.unit loaded.opened.rest.machine inputs)
        v₂ w₂ := by
  obtain ⟨w₁, w₂, result, bound, hsame, hpage, hbatch, hrun, houtcome⟩ :=
    loaded.inputs_run_of_taken hdisk (.inr haccepts)
  obtain ⟨v₁, v₂, result', bound', hsame', hpage', hbatch', hrun', houtcome'⟩ :=
    loaded.inputs_run_of_taken hdisk (.inl (unreadOn_readable disk wording.unit
      loaded.opened.rest.machine inputs))
  rw [unreadOn_readable] at hrun'
  rw [complaints_readable] at hpage'
  rw [unitsOn_readable] at hbatch'
  obtain ⟨hresult, hrest⟩ := loaded.runUnits_same
    (unitsOn disk wording.unit loaded.opened.rest.machine inputs) (hsame'.trans hsame.symm)
  rw [hbatch, hbatch'] at hresult hrest
  cases hresult
  refine ⟨w₂, v₂, result, houtcome, houtcome', hrun, hrun', hrest, ?_⟩
  intro text hkeeps
  have hstart : Inserted World.rest (fun w => text w.page) (text loaded.opened.page)
      (complaints disk wording.unit loaded.opened.rest.machine inputs) v₁ w₁ :=
    inserted_start (hsame'.trans hsame.symm) ((hpage' text hkeeps).trans String.append_empty)
      (hpage text hkeeps)
  obtain ⟨_, hafter⟩ := ((loaded.linesOn hkeeps).worker_inserted loaded.separates _ _).run
    loaded.options .never .empty (unitsOn disk wording.unit loaded.opened.rest.machine inputs)
    v₁ w₁ hstart
  unfold runUnits Batch.run at hbatch hbatch'
  rw [hbatch, hbatch'] at hafter
  exact hafter

/-- Without the files that cannot be read, a command ends as its run does, and
leaves the same but for their lines. -/
theorem without_unreadable (hdisk : disk.LooksOnly) (haccepts : err.Accepts) (inputs : List Path) :
    let machine := loaded.opened.rest.machine
    let rest := readable disk wording.unit machine inputs
    ∃ result, loaded.outcome inputs = .ok result ∧ loaded.outcome rest = .ok result ∧
      (loaded.run inputs).1 = verdict (rest.length == inputs.length) result ∧
      (loaded.run rest).1 = verdict true result ∧
      (loaded.run rest).2.rest = (loaded.run inputs).2.rest ∧
      ∀ text, err.Keeps text → ∃ late,
        text (loaded.run inputs).2.page =
          text loaded.opened.page ++ complaints disk wording.unit machine inputs ++ late ∧
        text (loaded.run rest).2.page = text loaded.opened.page ++ late := by
  intro machine rest
  obtain ⟨w₂, v₂, result, houtcome, houtcome', hrun, hrun', hrest, hpages⟩ :=
    loaded.runs_without_unreadable hdisk haccepts inputs
  have hread : (unreadOn disk wording.unit machine inputs == 0) =
      (rest.length == inputs.length) := by
    have hlength : rest.length + unreadOn disk wording.unit machine inputs = inputs.length :=
      length_readable disk wording.unit machine inputs
    rw [Bool.eq_iff_iff, beq_iff_eq, beq_iff_eq]
    omega
  rw [hread] at hrun
  -- both commands answer in the same words
  have hleaves := answer_leaves (err.onPage_leaves (τ := Session δ))
  have hlast := hleaves (rest.length == inputs.length) result w₂
  have hlast' := hleaves true result v₂
  obtain ⟨w₃, hanswer, htext⟩ :=
    answer_of_accepts haccepts.onPage (rest.length == inputs.length) result w₂
  obtain ⟨v₃, hanswer', htext'⟩ := answer_of_accepts haccepts.onPage true result v₂
  rw [hanswer] at hrun hlast
  rw [hanswer'] at hrun' hlast'
  rw [hrun, hrun']
  refine ⟨result, houtcome, houtcome', rfl, rfl, (hlast'.trans hrest).trans hlast.symm, ?_⟩
  intro text hkeeps
  obtain ⟨_, late, hbefore, hbehind⟩ := hpages text hkeeps
  dsimp only at hbefore hbehind
  refine ⟨linesText late ++ textOfLines (told result), ?_, ?_⟩
  · rw [htext _ hkeeps.onPage, hbehind, String.append_assoc]
  · rw [htext' _ hkeeps.onPage, hbefore, String.append_assoc]

end Loaded

theorem conclude_eq_zero (world : World (StateM V)) (result : Except Halt Bool) (v : V) :
    ((conclude world result).run v).1 = 0 ↔ result = .ok true := by
  have hone : (1 : UInt32) ≠ 0 := by decide
  have hbroken : brokenCode ≠ 0 := by decide
  rcases result with (failure | cause) | (_ | _)
  · -- a failure is told of, and its line may be refused
    rcases hline : (putLine world.err ("error: " ++ failure.message)).run.run v with ⟨_ | _, v'⟩
    · unfold conclude
      rw [run_bind_of hline]
      exact ⟨fun hzero => absurd hzero hbroken, nofun⟩
    · unfold conclude
      rw [run_bind_of hline]
      exact ⟨fun hzero => absurd hzero hone, nofun⟩
  · exact ⟨fun hzero => absurd hzero hbroken, nofun⟩
  · exact ⟨fun hzero => absurd hzero hone, nofun⟩
  · exact ⟨fun _ => rfl, fun _ => rfl⟩

/-- The exit code is zero if the command succeeds, and only then. -/
theorem execute_translate {world : World (StateM V)} [MonadStateOf MarkerMap (StateM V)]
    [MonadStateOf Written (StateM V)] {argv : List String} {args : TranslateArgs}
    (h : read argv = .ok (.translate args)) (v : V) :
    ((execute world argv).run v).1 = 0 ↔ ((translate world args).run.run v).1 = .ok true := by
  rcases hrun : (translate world args).run.run v with ⟨result, v'⟩
  have hperform : (perform world (.translate args)).run.run v = (result, v') := hrun
  unfold execute
  rw [h]
  dsimp only
  rw [run_bind_of hperform]
  exact conclude_eq_zero world result v'

/-- Of a recasting command that has its settings, its renderer and its store,
the exit code is zero exactly if every file is read and every unit is done, and
then the run has reported every unit. If the stream of errors takes every text,
the run comes out the same without the files that cannot be read, and all that
it writes is the same but for their error lines. -/
theorem a_command_succeeds_if_all_is_read_and_done (disk : Disk (StateM δ))
    (hdisk : disk.LooksOnly) (out : TextStream (StateM δ)) (err : TextStream (StateM σ))
    (surroundings : Surroundings) (root : Path) (wording : Wording) (args : TranslateArgs)
    (start : Recast.World σ (Session δ))
    (loaded : Loaded (onMachine disk out err surroundings root wording) args start) :
    let machine := loaded.opened.rest.machine
    let rest := readable disk wording.unit machine args.inputs
    (∀ argv, read argv = .ok (.translate args) →
      (((execute (onMachine disk out err surroundings root wording) argv).run start).1 = 0 ↔
        (loaded.run args.inputs).1 = .ok true)) ∧
    ((loaded.run args.inputs).1 = .ok true ↔
      (∀ file ∈ args.inputs, (disk.unitOn wording.unit machine file).isOk) ∧
        ∀ result ∈ ((loaded.setup.processEach loaded.dest .empty
            (unitsOn disk wording.unit machine args.inputs)).run loaded.opened).1,
          ∃ report, result = .ok report ∧ report.trace.getLast? = some .done) ∧
    ((loaded.run args.inputs).1 = .ok true →
      ∃ summary, loaded.outcome args.inputs = .ok (.ok summary) ∧
        ((loaded.setup.processEach loaded.dest .empty
          (unitsOn disk wording.unit machine args.inputs)).run loaded.opened).1 =
          summary.reports.map .ok) ∧
    (err.Accepts → ∃ result,
      loaded.outcome args.inputs = .ok result ∧ loaded.outcome rest = .ok result ∧
      (loaded.run args.inputs).1 = verdict (rest.length == args.inputs.length) result ∧
      (loaded.run rest).1 = verdict true result ∧
      (loaded.run rest).2.rest = (loaded.run args.inputs).2.rest ∧
      ∀ text, err.Keeps text → ∃ late,
        text (loaded.run args.inputs).2.page =
          text loaded.opened.page ++ complaints disk wording.unit machine args.inputs ++ late ∧
        text (loaded.run rest).2.page = text loaded.opened.page ++ late) := by
  intro machine rest
  exact ⟨fun argv hargs => execute_translate hargs start, loaded.succeeds_iff hdisk,
    loaded.reports_of_success hdisk,
    fun haccepts => loaded.without_unreadable hdisk haccepts args.inputs⟩

/-- A tree of files beside a stream. -/
def treeDisk : Disk (StateM (Recast.World String FileTree)) := FileTree.disk.onRest

theorem treeDisk_looksOnly : treeDisk.LooksOnly := fun _ _ => rfl

/-- Of three files only the first can be read: the second is missing, and the
third holds no unit. -/
def threeFiles : Recast.World String (Session (Recast.World String FileTree)) :=
  ⟨"", .empty, ⟨[]⟩, "", [],
    [(["A.json"], .text "\x7b\"types\": [\x7b\"name\": \"A\", \"kind\": \"class\"\x7d]\x7d"),
      (["C.json"], .text "[")]⟩

def threeFilesArgs : TranslateArgs :=
  ⟨["A.json", "B.json", "C.json"], "csharp", none, none, false, none, true, false, false⟩

/-- What a reader says of the text of the third file. -/
def unfinishedList : Wording :=
  ⟨fun _ => "EOF while parsing a list at line 1 column 1", id, id⟩

def threeFilesLoaded : Loaded (onMachine treeDisk TextStream.buffer.onPage TextStream.buffer
    ⟨none, none⟩ "/" unfinishedList) threeFilesArgs threeFiles where
  stored := .empty
  config := ⟨"", false, false, .log⟩
  renderer := .csharp
  store := .nowhere
  settled := threeFiles
  configured := threeFiles
  opened := threeFiles
  settings_loaded := rfl
  config_loaded := rfl
  renderer_found := rfl
  store_opened := rfl

theorem two_of_three_files_are_not_read :
    ((execute (onMachine treeDisk TextStream.buffer.onPage TextStream.buffer ⟨none, none⟩ "/"
        unfinishedList) ["translate", "A.json", "B.json", "C.json", "--parallel"]).run
        threeFiles).1 ≠ 0 ∧
      (threeFilesLoaded.run ["A.json"]).1.toOption = some true ∧
      (threeFilesLoaded.run ["A.json"]).2.rest.machine.page = "class A\n\x7b\n\x7d\n" ∧
      (threeFilesLoaded.run ["A.json"]).2.rest =
        (threeFilesLoaded.run threeFilesArgs.inputs).2.rest ∧
      ∃ late, (threeFilesLoaded.run threeFilesArgs.inputs).2.page =
          "failed to read B.json: No such file or directory (os error 2)\n" ++
            "malformed unit C.json: EOF while parsing a list at line 1 column 1\n" ++ late ∧
        (threeFilesLoaded.run ["A.json"]).2.page = late := by
  obtain ⟨hcode, hsuccess, _, hremoved⟩ :=
    a_command_succeeds_if_all_is_read_and_done treeDisk treeDisk_looksOnly
      TextStream.buffer.onPage .buffer ⟨none, none⟩ "/" unfinishedList threeFilesArgs threeFiles
      threeFilesLoaded
  obtain ⟨_, _, _, _, _, hrest, hpages⟩ := hremoved TextStream.buffer_keeps.accepts
  have hreadable : readable treeDisk unfinishedList.unit threeFilesLoaded.opened.rest.machine
      threeFilesArgs.inputs = [⟨"A.json"⟩] := by decide +kernel
  have hcomplaints : complaints treeDisk unfinishedList.unit threeFilesLoaded.opened.rest.machine
      threeFilesArgs.inputs = "failed to read B.json: No such file or directory (os error 2)\n" ++
        "malformed unit C.json: EOF while parsing a list at line 1 column 1\n" := by decide +kernel
  have hmissing : (treeDisk.unitOn unfinishedList.unit threeFilesLoaded.opened.rest.machine
      "B.json").isOk = false := by
    decide +kernel
  have hargs : read ["translate", "A.json", "B.json", "C.json", "--parallel"] =
      .ok (.translate threeFilesArgs) := rfl
  rw [hreadable] at hrest hpages
  obtain ⟨late, hall, hone⟩ := hpages id TextStream.buffer_keeps
  have hempty : id threeFilesLoaded.opened.page = "" := rfl
  rw [hcomplaints, hempty, String.empty_append] at hall
  rw [hempty, String.empty_append] at hone
  refine ⟨?_, by decide +kernel, by decide +kernel, hrest, late, hall, hone⟩
  intro hzero
  have hread := (hsuccess.mp ((hcode _ hargs).mp hzero)).1 "B.json" (by decide)
  rw [hmissing] at hread
  cases hread

end Command

end Recast

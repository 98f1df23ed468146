import Splice.Timeline.Project
import Splice.Text.Quoted

/-!
# Validation

The structural faults of a project, each an `Issue` with one message. They are reported in the order
of the clips and, for one clip, in the order of its checks; the faults of the requested output
format come last.
-/

namespace Splice

/-- A fault of a project. All but the last three belong to the clip of the given id. -/
inductive Issue (α : Type) where
  | duplicateId (id : String)
  | duration (id : String)
  | startTime (id : String)
  | noSource (id : String)
  | trimStart (id : String)
  | trimEnd (id : String)
  | position (id : String) (position : Position α)
  | size (id : String)
  | cropOutside (id : String)
  | cropEmpty (id : String)
  | keyframes (id : String)
  | outputWidth
  | outputHeight
  | outputFps (fps : α)

variable {α : Type} [Scalar α]

/-- The message of a fault. -/
def Issue.message : Issue α → String
  | duplicateId id => "duplicate clip id " ++ Text.quoted id
  | duration id => about id "duration must be positive"
  | startTime id => about id "startTime must be a non-negative number"
  | noSource id => about id "missing sourceId"
  | trimStart id => about id "trimStart must be a non-negative number"
  | trimEnd id => about id "trimEnd must be finite"
  | position id p =>
    about id ("position (" ++ Scalar.plain p.x ++ ", " ++ Scalar.plain p.y ++ ") outside 0-100")
  | size id => about id "size must be positive"
  | cropOutside id => about id "crop outside 0-1"
  | cropEmpty id => about id "crop has zero size"
  | keyframes id => about id "keyframes must be finite"
  | outputWidth => "output width must be positive"
  | outputHeight => "output height must be positive"
  | outputFps fps => "output fps must be positive, got " ++ Scalar.plain fps
where
  /-- A fault of one clip. -/
  about (id text : String) : String := "clip " ++ Text.quoted id ++ ": " ++ text

/-! ### Conditions on single values -/

/-- Whether the scalar is finite and above zero. -/
def isPositive (x : α) : Bool := Scalar.isFinite x && !decide (x ≤ 0.0)

/-- Whether the scalar is finite and not below zero. -/
def isNonNegative (x : α) : Bool := Scalar.isFinite x && !decide (x < 0.0)

/-- Whether the scalar is finite and within `[low, high]`. -/
def isWithin (low high x : α) : Bool :=
  Scalar.isFinite x && decide (low ≤ x) && decide (x ≤ high)

/-- Whether every value of a keyframe is finite. -/
def Keyframe.isFinite (k : Keyframe α) : Bool :=
  Scalar.isFinite k.time && k.opacity?.all Scalar.isFinite &&
    k.position?.all fun p ↦ p.x?.all Scalar.isFinite && p.y?.all Scalar.isFinite

/-! ### Faults of the parts -/

/-- The fault if a condition fails. -/
def Issue.check (holds : Bool) (issue : Issue α) : List (Issue α) := if holds then [] else [issue]

/-- The faults of a requested output format. -/
def OutputSettings.issues (s : OutputSettings α) : List (Issue α) :=
  Issue.check (s.width? != some 0) .outputWidth ++
    Issue.check (s.height? != some 0) .outputHeight ++
    match s.fps? with
    | some fps => Issue.check (isPositive fps) (.outputFps fps)
    | none => []

/-- The faults of a crop box. -/
def Crop.issues (id : String) (box : Crop α) : List (Issue α) :=
  if [box.x, box.y, box.width, box.height].all (isWithin 0.0 1.0) then
    Issue.check (!(decide (box.width ≤ 0.0) || decide (box.height ≤ 0.0))) (.cropEmpty id)
  else [.cropOutside id]

/-- The faults of a placement. -/
def Look.issues (id : String) (v : Look α) : List (Issue α) :=
  Issue.check (isWithin 0.0 100.0 v.position.x && isWithin 0.0 100.0 v.position.y)
      (.position id v.position) ++
    Issue.check (isPositive v.size.width && isPositive v.size.height) (.size id) ++
    (match v.crop? with
      | some box => box.issues id
      | none => []) ++
    Issue.check (v.keyframes.all Keyframe.isFinite) (.keyframes id)

/-- The faults of what a clip plays. -/
def Content.issues (id : String) : Content α → List (Issue α)
  | video media | image media =>
    Issue.check (!Text.isBlankText media.sourceId) (.noSource id) ++
      Issue.check (isNonNegative media.trimStart) (.trimStart id) ++
      Issue.check (media.trimEnd?.all Scalar.isFinite) (.trimEnd id)
  | audio a => Issue.check (!Text.isBlankText a.sourceId) (.noSource id)
  | text _ => []
  | shape _ => []

/-- The faults of a clip on its own. -/
def Clip.issues (clip : Clip α) : List (Issue α) :=
  Issue.check (isPositive clip.duration) (.duration clip.id) ++
    Issue.check (isNonNegative clip.startTime) (.startTime clip.id) ++
    clip.content.issues clip.id ++
    match clip.content.look? with
    | some look => look.issues clip.id
    | none => []

/-! ### Faults of a project -/

/-- The faults of clips that come after clips with the given ids. Clips without an id may repeat. -/
def Clip.issuesAfter (seen : List String) : List (Clip α) → List (Issue α)
  | [] => []
  | clip :: rest =>
    Issue.check (clip.id.isEmpty || !seen.contains clip.id) (.duplicateId clip.id) ++
      clip.issues ++ issuesAfter (clip.id :: seen) rest

/-- The faults of a project. -/
def Project.issues (p : Project α) : List (Issue α) :=
  Clip.issuesAfter [] p.clips ++
    match p.outputSettings? with
    | some settings => settings.issues
    | none => []

/-- The messages of faults in one line. -/
def Issue.summary (issues : List (Issue α)) : String :=
  "; ".intercalate (issues.map Issue.message)

end Splice

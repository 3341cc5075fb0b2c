import EERDiagram.Proofs.CommandLine.Outcome
import EERDiagram.Proofs.Diagram.Placement
import EERDiagram.Proofs.Document.Writing

/-! What a command leaves alone. It changes no file but the one that it is told to write, and a
move changes one line of that. -/
namespace EERDiagram

theorem Document.bytes_writePosition (document : String) {index : Int} (x y : Float)
    (lower : 0 ≤ index) (upper : index < (Text.splitLines document.toList).length) : ∃ changed,
      (Text.encode (afterMove document (writePosition document index x y)).toList).splitOn
          Text.feed =
        ((Text.encode document.toList).splitOn Text.feed).set index.toNat changed := by
  rw [Text.splitOn_encode, Text.splitOn_encode]
  have inside : index.toNat < (Text.splitLines document.toList).length := by omega
  rcases afterMove_writePosition document index x y with same | ⟨pair, missing, -, written⟩
  · rw [same]
    exact ⟨_, (List.set_getElem_self (by simpa using inside)).symm⟩
  · rw [written, lines_setPair missing, List.modify_eq_set_getElem?,
      List.getElem?_eq_getElem inside]
    exact ⟨_, List.map_set⟩

namespace CommandLine

section Loaded

variable [Yaml.Loader]

/-- A node of the document at a path was moved: no other file is changed, and in its own only the
bytes of the line that declares it. -/
structure Moved (config : Option Path) (file : Path) (id : String) (t after : Tree) : Prop where
  others : ∀ place, t.locate file ≠ .ok place → after.file? place = t.file? place
  line : ∃ place old new document s d node changed,
    t.locate file = .ok place ∧ t.file? place = some old ∧ after.file? place = some new ∧
      Text.decode old = .ok document ∧ t.settings config file = .ok s ∧
      Diagram.read s.layout (String.ofList document) = .ok d ∧ d.find? id = some node ∧
      0 ≤ node.line ∧ node.line < (old.splitOn Text.feed).length ∧
      new.splitOn Text.feed = (old.splitOn Text.feed).set node.line.toNat changed

/-- What a request that ends in some way leaves of the files in a tree. -/
def Request.Keeps (config : Option Path) (t after : Tree) (ending : Ending) : Request → Prop
  | .new file force =>
    (∀ place, after.locate file ≠ .ok place → after.file? place = t.file? place) ∧
      (force = false → ∀ place bytes, t.file? place = some bytes → after.file? place = some bytes)
  | .parse _ none | .check _ => t.SameFiles after
  | .parse _ (some output) =>
    ∀ place, after.locate output ≠ .ok place → after.file? place = t.file? place
  | .move file id _ _ => if ending = .exit 0 then Moved config file id t after else t.SameFiles after

variable {t after : Tree} {config : Option Path} {file : Path}

theorem Request.keeps_of_sameFiles {ending : Ending} (same : t.SameFiles after)
    (stopped : ending ≠ .exit 0) (request : Request) : request.Keeps config t after ending := by
  cases request with
  | new file force => exact ⟨fun place _ => same place, fun _ place _ found => same place ▸ found⟩
  | parse file output =>
    cases output with
    | none => exact same
    | some output => exact fun place _ => same place
  | check file => exact same
  | move file id x y => simpa only [Request.Keeps, if_neg stopped] using same

theorem moved_of_wrote {id : String} {x y : Float} {place : List String}
    (opens : t.Opens config file text d) (found : d.find? id = some node)
    (located : t.locate file = .ok place)
    (wrote : t.Wrote file (Text.encode
      (Document.afterMove text (Document.writePosition text node.line x y)).toList) place after) :
    Moved config file id t after := by
  obtain ⟨s, loaded, read⟩ := opens.diagram
  have range := Diagram.line_range read (List.mem_of_find?_eq_some found)
  obtain ⟨changed, lines⟩ := Document.bytes_writePosition text x y range.1 range.2
  obtain ⟨own, reached, bytes, decoded⟩ := Tree.file_of_text? opens.document
  obtain rfl := Except.ok.inj (located.symm.trans reached)
  refine ⟨fun other apart => wrote.others other fun same => apart (same ▸ located), place, _, _,
    text.toList, s, d, node, changed, located, bytes, wrote.file, decoded, loaded, ?_, found,
    range.1, ?_, lines⟩
  · rwa [String.ofList_toList]
  · rw [Text.splitOn_encode, List.length_map]
    exact range.2

theorem Outcome.keeps {request : Request} {result : Except Halt Unit}
    (outcome : Outcome config t request result after) :
    request.Keeps config t after (.ofResult result) := by
  cases outcome with
  | complained message => exact Request.keeps_of_sameFiles (.refl t) (by simp [Ending.ofResult]) _
  | failed failure same => exact Request.keeps_of_sameFiles same (by simp [Ending.ofResult]) _
  | created free wrote =>
    refine ⟨wrote.others_of_locate, fun unforced place bytes found => ?_⟩
    rw [wrote.others, found]
    rintro rfl
    simp [free unforced] at found
  | shown => exact .refl t
  | checked => exact .refl t
  | saved wrote => exact wrote.others_of_locate
  | moved opens found located wrote => exact moved_of_wrote opens found located wrote

/-- Whatever the loader, every command that is accepted leaves all files as they were, but for the
one that it is told to write, and a move leaves the other lines of that. -/
theorem run_keeps {arguments : List String} {i : Invocation} {request : Request} (t : Tree)
    (accepted : Invocation.read arguments = .ok i) (asked : i.request = some request) :
    request.Keeps i.config t ((run arguments : StateM Tree Report).run t).2
      ((run arguments : StateM Tree Report).run t).1.ending := by
  obtain ⟨report, after, ran, -, ⟨-, ending, rfl⟩ | ⟨-, result, outcome, ending, -⟩⟩ :=
    run_invocation i t asked
  · rw [run_of_accepted accepted, ran, ending]
    exact Request.keeps_of_sameFiles (.refl _) (by simp) request
  · rw [run_of_accepted accepted, ran, ending]
    exact outcome.keeps

end Loaded

/-- A move in a file with returns, next to one that is no text. -/
theorem run_keeps_returns :
    let t : Tree := ⟨["w"], [(["w"], .directory), (["w", "b.eer"], .file [0xFF]),
      (["w", "a.eer"], .file (Text.encode "ent A (1, 2)\r\nent \u00C9t\u00E9 (3, 4)\r\n".toList))]⟩
    let arguments := ["move", "a.eer", "A", "5", "6.5"]
    let ran := (run arguments : StateM Tree Report).run t
    Invocation.read arguments = .ok ⟨none, "WARNING", some (.move ⟨.here, ["a.eer"]⟩ "A" 5 6.5)⟩ ∧
      ran.1.ending = .exit 0 ∧ Moved none ⟨.here, ["a.eer"]⟩ "A" t ran.2 ∧
      ran.2.file? ["w", "a.eer"] =
        some (Text.encode "ent A (5, 7)\r\nent \u00C9t\u00E9 (3, 4)\r\n".toList) := by
  intro t arguments ran
  have accepted : Invocation.read arguments =
      .ok ⟨none, "WARNING", some (.move ⟨.here, ["a.eer"]⟩ "A" 5 6.5)⟩ := by decide +kernel
  have ending : ran.1.ending = .exit 0 := by decide +kernel
  have keeps := run_keeps t accepted rfl
  exact ⟨accepted, ending, (if_pos ending).mp keeps, by decide +kernel⟩

end CommandLine
end EERDiagram

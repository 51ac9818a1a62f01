import OpeningHand.Search.Simulation
import OpeningHand.Proofs.Search.Lines

/-!
# The parts of a search

What a search comes to is put together from its parts: the candidates of a board are tried in turn
(`tryEach_cases`), and below each hand that fails the search goes on (`explore_cases`). What the parts keep to,
whole searches have (`KeptBySearch.search`). So, whatever the caps do, a search succeeds if some hand that it
judged meets the condition, and its log holds no line that opens another search (`sound_search`).
-/

namespace OpeningHand

/-! ### One candidate -/

namespace Play

theorem playNamed_cases (aim : Aim) (name : String) (b : Board) :
    (∃ scene, playNamed aim name ⟨b, []⟩ = (.ok none, scene) ∧ ∀ l ∈ scene.log, IsPlayLine l) ∨
      (∃ f scene, playNamed aim name ⟨b, []⟩ = (.error f, scene)) ∨
      ∃ card scene, playNamed aim name ⟨b, []⟩ = (.ok (some card), scene) ∧
        (∀ l ∈ scene.log, IsPlayLine l) ∧
        b.freeInHand.find? (fun d => d.name == name) = some card ∧
        playFree aim card ⟨b, []⟩ = (.ok true, scene) := by
  unfold playNamed
  simp only [bind, Play.bind, board]
  cases hfind : b.freeInHand.find? fun d => d.name == name with
  | none =>
      refine Or.inl ⟨⟨b, ["[FREE] WARN " ++ name ++ " is not in hand"]⟩, rfl, ?_⟩
      have h := isPlayLine_append (" WARN " ++ name ++ " is not in hand")
      simpa [← String.append_assoc] using h
  | some card =>
      obtain ⟨lines, hlog, hlines⟩ := log_playFree aim card ⟨b, []⟩
      generalize hp : playFree aim card ⟨b, []⟩ = p at hlog
      obtain ⟨r, scene⟩ := p
      have hscene : ∀ l ∈ scene.log, IsPlayLine l := by
        have : scene.log = lines := hlog
        rwa [this]
      dsimp only
      rw [Play.bind, hp]
      cases r with
      | error f => exact Or.inr (Or.inl ⟨f, scene, rfl⟩)
      | ok ok =>
          cases ok with
          | false => exact Or.inl ⟨scene, rfl, hscene⟩
          | true => exact Or.inr (Or.inr ⟨card, scene, rfl, hscene, rfl, hp⟩)

theorem log_playNamed {aim : Aim} {name : String} {b : Board} {scene : Scene} {r : Option Card}
    (h : playNamed aim name ⟨b, []⟩ = (.ok r, scene)) : ∀ l ∈ scene.log, IsPlayLine l := by
  rcases playNamed_cases aim name b with ⟨s, hs, hlog⟩ | ⟨f, s, hs⟩ | ⟨d, s, hs, hlog, -⟩
  all_goals
    rw [h] at hs
    simp only [Prod.mk.injEq, reduceCtorEq, false_and] at hs
  · exact hs.2 ▸ hlog
  · exact hs.2 ▸ hlog

end Play

/-- What is reached from a copy of the board by trying a candidate. -/
def Tries (c : Condition) (b : Board) (name : String) (card : Card) (scene : Scene) : Prop :=
  Play.playNamed c.aim name ⟨b.copy, []⟩ = (.ok (some card), scene)

theorem Tries.plays {c : Condition} {b : Board} {name : String} {card : Card} {scene : Scene}
    (h : Tries c b name card scene) :
    b.copy.isFirst card ∧ Plays c card b.copy scene.board ∧ ∀ l ∈ scene.log, IsPlayLine l := by
  rcases Play.playNamed_cases c.aim name b.copy with ⟨s, hs, -⟩ | ⟨f, s, hs⟩ |
    ⟨d, s, hs, hlog, hfind, hplay⟩
  · rw [h] at hs
    simp at hs
  · rw [h] at hs
    simp at hs
  · rw [h] at hs
    simp only [Prod.mk.injEq, Except.ok.injEq, Option.some.injEq] at hs
    obtain ⟨rfl, rfl⟩ := hs
    have hname : card.name = name := by simpa using List.find?_some hfind
    have hhand : card ∈ b.copy.hand :=
      (List.mem_filter.1 (List.mem_of_find?_eq_some hfind)).1
    refine ⟨?_, ⟨hhand, [], scene.log, hplay⟩, hlog⟩
    rw [Board.isFirst, hname]
    exact hfind

theorem Tries.of_first {c : Condition} {b : Board} {card : Card} {scene : Scene}
    (hfirst : b.copy.isFirst card) (h : Play.playFree c.aim card ⟨b.copy, []⟩ = (.ok true, scene)) :
    Tries c b card.name card scene := by
  unfold Tries Play.playNamed
  rw [Board.isFirst] at hfirst
  simp only [bind, Play.bind, Play.board, hfirst, h]
  rfl

/-- A name is tried in one way only. -/
theorem Tries.exists_iff {c : Condition} {b : Board} {name : String} {played : Card} {scene : Scene}
    (h : Tries c b name played scene) {P : Board → Prop} :
    (∃ played scene, Tries c b name played scene ∧ P scene.board) ↔ P scene.board := by
  constructor
  · rintro ⟨played', scene', h', hP⟩
    rw [Tries] at h h'
    rw [h, Prod.mk.injEq] at h'
    exact h'.2 ▸ hP
  · exact fun hP => ⟨played, scene, h, hP⟩

/-! ### The parts of a search -/

/-- No cap cut the search short: neither warning is in its log. -/
def Caps.Unreached (caps : Caps) (log : List String) : Prop :=
  Caps.line "branch" caps.branches ∉ log ∧ Caps.line "depth" caps.depth ∉ log

instance (caps : Caps) (log : List String) : Decidable (caps.Unreached log) :=
  inferInstanceAs (Decidable (_ ∧ _))

theorem Caps.unreached_append {caps : Caps} {a b : List String} :
    caps.Unreached (a ++ b) ↔ caps.Unreached a ∧ caps.Unreached b := by
  simp only [Caps.Unreached, List.mem_append, not_or]
  tauto

/-- The part of a search that the hand after a play makes up. -/
def judged (c : Condition) (depth : Nat) (scene : Scene) : Found :=
  (judge c depth scene.board).found scene.log

/-- What the candidates from one on come to: the cap on the hands is reached, or the candidate cannot be
played, or the hand after it is judged and the search goes on below it and with the others. -/
theorem tryEach_cases {c : Condition} {caps : Caps} {depth : Nat} {used : List Card} {b : Board}
    {deeper : Nat → List Card → Board → Except Fault Found} {recorded : Nat} {card : Card}
    {cards : List Card} {found : Found}
    (h : tryEach c caps depth used b deeper recorded (card :: cards) = .ok found) :
    found = .line (Caps.line "branch" caps.branches) ∨
      (∃ scene rest, Play.playNamed c.aim card.name ⟨b.copy, []⟩ = (.ok none, scene) ∧
        tryEach c caps depth used b deeper recorded cards = .ok rest ∧
        found = Found.andThen ⟨false, [], scene.log⟩ rest) ∨
      ∃ played scene, Tries c b card.name played scene ∧
        ((scene.board.meets c ∧ found = judged c depth scene) ∨
        (¬ scene.board.meets c ∧ ∃ below,
          deeper (recorded + 1) (used ++ [played]) scene.board = .ok below ∧
          ((below.success = true ∧ found = (judged c depth scene).andThen below) ∨
            (below.success = false ∧ ∃ rest,
              tryEach c caps depth used b deeper (recorded + 1 + below.branches.length) cards
                = .ok rest ∧
              found = ((judged c depth scene).andThen below).andThen rest)))) := by
  unfold tryEach at h
  split at h
  · cases h
  · exact Or.inl (Except.ok.inj h).symm
  · split at h
    · cases h
    · rename_i scene hplay
      obtain ⟨rest, hrest, rfl⟩ := map_eq_ok.1 h
      exact Or.inr (Or.inl ⟨scene, rest, hplay, hrest, rfl⟩)
    · rename_i played scene hplay
      refine Or.inr (Or.inr ⟨played, scene, hplay, ?_⟩)
      dsimp only at h
      split at h
      · rename_i hmeets
        exact Or.inl ⟨hmeets, (Except.ok.inj h).symm⟩
      · rename_i hmeets
        refine Or.inr ⟨hmeets, ?_⟩
        split at h
        · cases h
        · rename_i below hbelow
          refine ⟨below, hbelow, ?_⟩
          split at h
          · rename_i hsuccess
            exact Or.inl ⟨hsuccess, (Except.ok.inj h).symm⟩
          · rename_i hsuccess
            obtain ⟨rest, hrest, rfl⟩ := map_eq_ok.1 h
            exact Or.inr ⟨by simpa using hsuccess, rest, hrest, rfl⟩

/-- What a search from a board comes to: the cap on the plays is reached, or no free card is ahead, or
the candidates are tried. -/
theorem explore_cases {c : Condition} {caps : Caps} {ahead depth recorded : Nat} {used : List Card}
    {b : Board} {found : Found} (h : explore c caps ahead depth recorded used b = .ok found) :
    found = .line (Caps.line "depth" caps.depth) ∨ (ahead = 0 ∧ found = .nothing) ∨
      ∃ rest, ahead = rest + 1 ∧
        tryEach c caps depth used b (explore c caps rest (depth + 1)) recorded (b.candidates used)
          = .ok found := by
  unfold explore at h
  split at h
  · cases h
  · exact Or.inl (Except.ok.inj h).symm
  · cases ahead with
    | zero => exact Or.inr (Or.inl ⟨rfl, (Except.ok.inj h).symm⟩)
    | succ rest => exact Or.inr (Or.inr ⟨rest, rfl, h⟩)

/-- What a property of the parts of a search keeps to, if whole searches are to have it. A part that judged a hand
may rely on what every play keeps of its board. -/
structure KeptBySearch (c : Condition) (Inv : Nat → Board → Prop) (P : Found → Prop) : Prop where
  step : ∀ {depth b name played scene}, Inv depth b → Tries c b name played scene →
    Inv (depth + 1) scene.board
  warning : ∀ what cap, P (.line (Caps.line what cap))
  failed : ∀ {log : List String}, (∀ l ∈ log, IsPlayLine l) → P ⟨false, [], log⟩
  judged : ∀ {depth b} {log : List String}, Inv depth b → (∀ l ∈ log, IsPlayLine l) →
    P ((judge c depth b).found log)
  andThen : ∀ {f g : Found}, P f → P g → f.success = false → P (f.andThen g)

namespace KeptBySearch

variable {c : Condition} {caps : Caps} {Inv : Nat → Board → Prop} {P : Found → Prop}

theorem nothing (h : KeptBySearch c Inv P) : P .nothing := h.failed (by simp)

theorem tryEach (h : KeptBySearch c Inv P) {depth recorded : Nat} {used : List Card} {b : Board}
    {deeper : Nat → List Card → Board → Except Fault Found} (hb : Inv depth b)
    (hdeeper : ∀ {n used b found}, Inv (depth + 1) b → deeper n used b = .ok found → P found)
    {cards : List Card} {found : Found}
    (htry : OpeningHand.tryEach c caps (depth + 1) used b deeper recorded cards = .ok found) : P found := by
  induction cards generalizing recorded found with
  | nil =>
      obtain rfl := Except.ok.inj htry
      exact h.nothing
  | cons card cards ih =>
      rcases tryEach_cases htry with rfl | ⟨scene, rest, hplay, hrest, rfl⟩ |
        ⟨played, scene, htries, hcase⟩
      · exact h.warning _ _
      · exact h.andThen (h.failed (Play.log_playNamed hplay)) (ih hrest) rfl
      · have hscene := h.step hb htries
        have hhere : P (OpeningHand.judged c (depth + 1) scene) := h.judged hscene htries.plays.2.2
        rcases hcase with ⟨-, rfl⟩ | ⟨hmeets, below, hbelow, hcase⟩
        · exact hhere
        · have hboth := h.andThen hhere (hdeeper hscene hbelow) (Bool.eq_false_iff.2 hmeets)
          rcases hcase with ⟨-, rfl⟩ | ⟨hno, rest, hrest, rfl⟩
          · exact hboth
          · exact h.andThen hboth (ih hrest) hno

theorem explore (h : KeptBySearch c Inv P) {ahead depth recorded : Nat} {used : List Card} {b : Board}
    {found : Found} (hb : Inv depth b)
    (hexplore : OpeningHand.explore c caps ahead (depth + 1) recorded used b = .ok found) : P found := by
  induction ahead generalizing depth recorded used b found with
  | zero =>
      rcases explore_cases hexplore with rfl | ⟨-, rfl⟩ | ⟨rest, hrest, -⟩
      · exact h.warning _ _
      · exact h.nothing
      · cases hrest
  | succ ahead ih =>
      rcases explore_cases hexplore with rfl | ⟨-, rfl⟩ | ⟨rest, hrest, htry⟩
      · exact h.warning _ _
      · exact h.nothing
      · obtain rfl := Nat.succ.inj hrest
        exact h.tryEach hb ih htry

/-- **What the parts of a search keep to, a search has**, if the invariant holds of the opening board and of its
copy. -/
theorem search (h : KeptBySearch c Inv P) {opening : Board} {found : Found} (hopening : Inv 0 opening)
    (hcopy : Inv 0 opening.copy) (hsearch : OpeningHand.search c caps opening = .ok found) : P found := by
  have hhere : P ((judge c 0 opening.copy).found []) := h.judged hcopy (by simp)
  unfold OpeningHand.search at hsearch
  dsimp only at hsearch
  split at hsearch
  · obtain rfl := Except.ok.inj hsearch
    exact hhere
  · rename_i hno
    obtain ⟨below, hbelow, rfl⟩ := map_eq_ok.1 hsearch
    exact h.andThen hhere (h.explore hopening hbelow) (Bool.eq_false_iff.2 hno)

end KeptBySearch

/-! ### Success and log -/

namespace Simulation

/-- Whether a line of a log opens the search for a condition. -/
def isHeading (line : String) : Bool := "[SIM] condition ".toList.isPrefixOf line.toList

theorem isHeading_heading (i : Nat) (c : Condition) : isHeading (heading i c) = true := by
  have happend : heading i c = "[SIM] condition " ++ (Number.text i ++ (": " ++ c.text)) := by
    unfold heading
    rw [String.append_assoc, String.append_assoc]
  rw [isHeading, List.isPrefixOf_iff_prefix, happend, String.toList_append]
  exact List.prefix_append _ _

/-- Lines with another beginning are no headings. -/
theorem not_isHeading {start line : String} (h : start.toList <+: line.toList)
    (hne : ¬ start.toList <+: "[SIM] condition ".toList ∧
      ¬ "[SIM] condition ".toList <+: start.toList) : isHeading line = false := by
  rw [isHeading, Bool.eq_false_iff]
  intro hheading
  rw [List.isPrefixOf_iff_prefix] at hheading
  exact (List.prefix_or_prefix_of_prefix h hheading).elim hne.1 hne.2

theorem not_isHeading_append (start rest : String)
    (hne : ¬ start.toList <+: "[SIM] condition ".toList ∧
      ¬ "[SIM] condition ".toList <+: start.toList) : isHeading (start ++ rest) = false :=
  not_isHeading (by rw [String.toList_append]; exact List.prefix_append _ _) hne

end Simulation

open Simulation (isHeading)

/-- What all parts of a search keep to: a part succeeds if some hand that it judged meets the condition,
and no line of its log opens another search. -/
structure Found.Sound (f : Found) : Prop where
  success : f.success = f.branches.any (·.success)
  log : ∀ l ∈ f.log, isHeading l = false

namespace Found.Sound

theorem warning (what : String) (cap : Value) : (Found.line (Caps.line what cap)).Sound := by
  refine ⟨rfl, fun l hl => ?_⟩
  obtain rfl := List.mem_singleton.1 hl
  have h := Simulation.not_isHeading_append "[SIM] WARN "
    (what ++ " cap " ++ cap.shown ++ " reached") (by decide)
  simpa [Caps.line, ← String.append_assoc] using h

theorem failed {log : List String} (h : ∀ l ∈ log, IsPlayLine l) : (Found.mk false [] log).Sound :=
  ⟨rfl, fun l hl => Simulation.not_isHeading (h l hl) (by decide)⟩

theorem found (b : Branch) {log : List String} (h : ∀ l ∈ log, IsPlayLine l) : (b.found log).Sound := by
  refine ⟨by simp [Branch.found], fun l hl => ?_⟩
  rcases List.mem_append.1 hl with hl | hl
  · exact (failed h).log l hl
  · obtain rfl := List.mem_singleton.1 hl
    have h := Simulation.not_isHeading_append "[BRANCH d="
      (Number.text b.depth ++ "] hand: " ++ nameList b.board.hand ++ " -> " ++
        if b.success then "PASS" else "FAIL") (by decide)
    simpa [Branch.line, ← String.append_assoc] using h

theorem andThen {a b : Found} (ha : a.Sound) (hb : b.Sound) (hno : a.success = false) :
    (a.andThen b).Sound := by
  refine ⟨?_, fun l hl => (List.mem_append.1 hl).elim (ha.log l) (hb.log l)⟩
  rw [Found.andThen, List.any_append, ← ha.success, hno, hb.success, Bool.false_or]

end Found.Sound

/-- **A search succeeds if some hand that it judged does**, and its log is a section of its own. -/
theorem sound_search {c : Condition} {caps : Caps} {opening : Board} {found : Found}
    (h : search c caps opening = .ok found) : found.Sound := by
  have hkept : KeptBySearch c (fun _ _ => True) Found.Sound :=
    { step := fun _ _ => trivial
      warning := .warning
      failed := .failed
      judged := fun _ hlog => .found _ hlog
      andThen := .andThen }
  exact hkept.search trivial trivial h

end OpeningHand

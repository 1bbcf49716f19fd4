import Mathlib.Data.List.Basic
import Mathlib.Tactic.Common

/-!
# Lines that lose but do not reorder

A sender puts letters on a line, a relay passes them on, and a receiver takes
them. Letters may be lost at every hop. What is under way, in the order from
the receiver back to the sender, is a subsequence of what was sent, and so is
what has arrived.
-/

set_option autoImplicit false

namespace RexMq.LossyLine

variable {α : Type*}

structure Line (α : Type*) where
  sent : List α
  up : List α
  down : List α
  heard : List α

/-- One hop of any number of letters, some of which may be lost. -/
inductive Hop (x : Line α) : Line α → Prop
  | post (as bs : List α) : bs.Sublist as →
      Hop x { x with sent := x.sent++as, up := x.up++bs }
  | pass (as bs rest : List α) : x.up = as++rest → bs.Sublist as →
      Hop x { x with up := rest, down := x.down++bs }
  | take (as bs rest : List α) : x.down = as++rest → bs.Sublist as →
      Hop x { x with down := rest, heard := x.heard++bs }

def InOrder (x : Line α) : Prop := (x.heard++x.down++x.up).Sublist x.sent

theorem hop_stay (x : Line α) : Hop x x := by
  have h := Hop.post (x := x) [] [] (List.Sublist.refl _)
  simpa using h

theorem InOrder.hop {x x' : Line α} (hx : InOrder x) (h : Hop x x') : InOrder x' := by
  unfold InOrder at hx ⊢
  cases h with
  | post as bs hs =>
    rw [← List.append_assoc]
    exact hx.append hs
  | pass as bs rest hup hs =>
    rw [hup] at hx
    refine List.Sublist.trans ?_ hx
    rw [← List.append_assoc, ← List.append_assoc]
    exact ((List.Sublist.refl _).append hs).append (List.Sublist.refl _)
  | take as bs rest hdown hs =>
    rw [hdown] at hx
    refine List.Sublist.trans ?_ hx
    rw [← List.append_assoc]
    exact (((List.Sublist.refl _).append hs).append (List.Sublist.refl _)).append
      (List.Sublist.refl _)

theorem InOrder.heard_sublist {x : Line α} (hx : InOrder x) : x.heard.Sublist x.sent := by
  refine List.Sublist.trans ?_ hx
  rw [List.append_assoc]
  exact List.sublist_append_left _ _

end RexMq.LossyLine

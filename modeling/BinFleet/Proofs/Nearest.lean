import BinFleet.Nearest
import BinFleet.Proofs.Number.Order
import Mathlib.Data.Prod.Lex
import Mathlib.Data.String.Basic

namespace BinFleet

open Number (Double)

namespace NearbyMarker

/-- The place of a distance in the order; what is no number stands below all numbers. -/
def place (x : Float) : WithBot (WithBot (WithTop ℚ)) :=
  match Double.rank (Double.ofFloat x) with
  | none => ⊥
  | some a => a

theorem place_eq_bot_iff {x : Float} : place x = ⊥ ↔ (x != x) = true := by
  have hself : (x != x) = true ↔ ¬ ∃ a, Double.rank (Double.ofFloat x) = some a := by
    rw [bne, Bool.not_eq_true', ← Bool.not_eq_true, Double.beq_iff]
    simp only [and_self]
  rw [hself, place]
  cases Double.rank (Double.ofFloat x) <;> simp

theorem lt_iff_place {x y : Float} : x < y ↔ place x ≠ ⊥ ∧ place x < place y := by
  rw [Double.lt_iff, place, place]
  cases Double.rank (Double.ofFloat x) <;> cases Double.rank (Double.ofFloat y) <;> simp

/-- Comparing distances is comparing their places. -/
theorem compareDistance_compares (x y : Float) : (compareDistance x y).Compares (place x) (place y) := by
  simp only [compareDistance, ← place_eq_bot_iff, lt_iff_place]
  split_ifs with hx hy hy hlt hgt
  · exact hx.trans hy.symm
  · exact lt_of_eq_of_lt hx (bot_lt_iff_ne_bot.mpr hy)
  · exact lt_of_eq_of_lt hy (bot_lt_iff_ne_bot.mpr hx)
  · exact hlt.2
  · exact hgt.2
  · exact le_antisymm (not_lt.mp fun h => hgt ⟨hy, h⟩) (not_lt.mp fun h => hlt ⟨hx, h⟩)

/-- The distance first, then the device id. -/
def key (a : NearbyMarker) : WithBot (WithBot (WithTop ℚ)) ×ₗ String := toLex (place a.distance, a.marker.deviceId)

/-- Nearer, or as near and with a smaller device id. -/
def Before (a b : NearbyMarker) : Prop := a.key < b.key

theorem before_iff {a b : NearbyMarker} : a.Before b ↔ place a.distance < place b.distance ∨
    place a.distance = place b.distance ∧ a.marker.deviceId < b.marker.deviceId :=
  Prod.Lex.toLex_lt_toLex

theorem precedes_iff {a b : NearbyMarker} : precedes a b = true ↔ a.key ≤ b.key := by
  have h := compareDistance_compares a.distance b.distance
  rw [key, key, Prod.Lex.toLex_le_toLex, precedes, ← h.eq_lt, ← h.eq_eq]
  cases compareDistance a.distance b.distance <;> simp

/-- Sorting puts smaller keys first. -/
theorem pairwise_mergeSort (all : List NearbyMarker) :
    (all.mergeSort precedes).Pairwise fun a b => a.key ≤ b.key := by
  refine (List.pairwise_mergeSort ?_ ?_ all).imp precedes_iff.mp
  · intro a b c
    simp only [precedes_iff]
    exact le_trans
  · intro a b
    simp only [Bool.or_eq_true, precedes_iff]
    exact le_total _ _

end NearbyMarker

section Arrangements

open NearbyMarker

/-- All of these markers, the nearest first. -/
structure IsArrangement (all arranged : List NearbyMarker) : Prop where
  perm : arranged.Perm all
  ascending : arranged.Pairwise Before

theorem IsArrangement.unique {all first second : List NearbyMarker} (hfirst : IsArrangement all first)
    (hsecond : IsArrangement all second) : first = second := by
  refine List.Perm.eq_of_pairwise ?_ hfirst.ascending hsecond.ascending (hfirst.perm.trans hsecond.perm.symm)
  intro a b _ _ hab hba
  exact absurd hba (lt_asymm hab)

/-- Device ids that differ leave no ties. -/
theorem isArrangement_mergeSort {all : List NearbyMarker} (hids : (all.map (·.marker.deviceId)).Nodup) :
    IsArrangement all (all.mergeSort precedes) := by
  have hperm : (all.mergeSort precedes).Perm all := List.mergeSort_perm _ _
  have hdistinct : (all.mergeSort precedes).Pairwise fun a b => a.marker.deviceId ≠ b.marker.deviceId :=
    List.pairwise_map.mp ((hperm.map _).nodup_iff.mpr hids)
  refine ⟨hperm, ((pairwise_mergeSort all).and hdistinct).imp fun {a b} ⟨hle, hne⟩ => ?_⟩
  exact lt_of_le_of_ne hle fun heq => hne (congrArg (fun k => (ofLex k).2) heq)

/-- The markers that a radius does not exclude, each with its own distance. -/
def candidates (distance : Marker → Float) (markers : List Marker) (radius : Float) : List NearbyMarker :=
  (markers.filter fun m => ¬ (0.0 < radius ∧ radius < distance m)).map fun m => ⟨m, distance m⟩

/-- How many of `n` markers a limit leaves. -/
def shownCount (limit : Int) (n : Nat) : Nat := if limit ≤ 0 then n else min limit.toNat n

variable (distance : Marker → Float)

theorem nearestBy_eq (markers : List Marker) (radius : Float) (limit : Int) :
    nearestBy distance markers radius limit =
      ((candidates distance markers radius).mergeSort precedes).take
        (shownCount limit (candidates distance markers radius).length) := by
  have hwithin : (markers.map fun m => NearbyMarker.mk m (distance m)).filter
      (fun n => !(radius > 0.0 && n.distance > radius)) = candidates distance markers radius := by
    rw [List.filter_map, candidates]
    congr 2
    funext m
    simp
  simp only [nearestBy, hwithin, shownCount]
  generalize candidates distance markers radius = all
  have hlength : (all.mergeSort precedes).length = all.length := List.length_mergeSort _
  split_ifs with hpos hlimit hlimit
  · omega
  · rw [← hlength, ← List.take_eq_take_min]
  · rw [← hlength, List.take_length]
  · omega

theorem candidates_ids {markers : List Marker} (hids : (markers.map (·.deviceId)).Nodup) (radius : Float) :
    ((candidates distance markers radius).map (·.marker.deviceId)).Nodup := by
  rw [candidates, List.map_map]
  exact hids.sublist (List.filter_sublist.map _)

/-- The nearest markers are the first ones of the only arrangement of the markers that the radius
leaves, in whatever order the markers are given. -/
theorem nearest_unique_arrangement {markers : List Marker} (hids : (markers.map (·.deviceId)).Nodup) (radius : Float)
    (limit : Int) :
    (∃ arranged, IsArrangement (candidates distance markers radius) arranged ∧
      (∀ other, IsArrangement (candidates distance markers radius) other → other = arranged) ∧
      nearestBy distance markers radius limit = arranged.take (shownCount limit arranged.length)) ∧
    ∀ others, others.Perm markers → nearestBy distance others radius limit = nearestBy distance markers radius limit := by
  have harranged := isArrangement_mergeSort (candidates_ids distance hids radius)
  refine ⟨⟨_, harranged, fun other hother => hother.unique harranged, ?_⟩, fun others hothers => ?_⟩
  · rw [nearestBy_eq, List.length_mergeSort]
  · have hperm : (candidates distance others radius).Perm (candidates distance markers radius) :=
      (hothers.filter _).map _
    have hids' : (others.map (·.deviceId)).Nodup := (hothers.map _).nodup_iff.mpr hids
    have hother := isArrangement_mergeSort (candidates_ids distance hids' radius)
    rw [nearestBy_eq, nearestBy_eq, hperm.length_eq]
    congr 1
    exact IsArrangement.unique ⟨hother.perm.trans hperm, hother.ascending⟩ harranged

end Arrangements

namespace Square

/-- Bins around a square: one without a distance, one near, two equally far away and one beyond the radius. -/
def bins : List Marker := ["c", "far", "lost", "d", "b"].map fun id => { deviceId := id }

def away (m : Marker) : Float :=
  if m.deviceId = "lost" then 0.0 / 0.0
  else if m.deviceId = "far" then 80.0
  else if m.deviceId = "d" then 10.0
  else 20.0

/-- The lost bin is not known to be too far away and comes first, then the near one; the tie is cut by the id. -/
theorem nearest_three : (bins.map (·.deviceId)).Nodup ∧
    nearestBy away bins 50.0 3 =
      [⟨{ deviceId := "lost" }, 0.0 / 0.0⟩, ⟨{ deviceId := "d" }, 10.0⟩, ⟨{ deviceId := "b" }, 20.0⟩] ∧
    nearestBy away bins.reverse 50.0 3 = nearestBy away bins 50.0 3 := by
  have hids : (bins.map (·.deviceId)).Nodup := by decide
  obtain ⟨⟨arranged, -, hunique, hnearest⟩, hperm⟩ := nearest_unique_arrangement away hids 50.0 3
  refine ⟨hids, ?_, hperm _ (List.reverse_perm _)⟩
  have hradius : (0.0 : Float) < 50.0 := by decide +kernel
  have hten : ¬ (50.0 : Float) < 10.0 := by decide +kernel
  have htwenty : ¬ (50.0 : Float) < 20.0 := by decide +kernel
  have hfar : (50.0 : Float) < 80.0 := by decide +kernel
  have hlost : ¬ (50.0 : Float) < 0.0 / 0.0 := by decide +kernel
  have hall : candidates away bins 50.0 =
      [⟨{ deviceId := "c" }, 20.0⟩, ⟨{ deviceId := "lost" }, 0.0 / 0.0⟩, ⟨{ deviceId := "d" }, 10.0⟩,
        ⟨{ deviceId := "b" }, 20.0⟩] := by
    simp [candidates, bins, away, hradius, hten, htwenty, hfar, hlost]
  have hnearer {x y : Float} (h : NearbyMarker.compareDistance x y = .lt) (m n : Marker) :
      NearbyMarker.Before ⟨m, x⟩ ⟨n, y⟩ :=
    NearbyMarker.before_iff.mpr (.inl ((NearbyMarker.compareDistance_compares x y).eq_lt.mp h))
  have hlostTen := hnearer (x := 0.0 / 0.0) (y := 10.0) (by decide +kernel)
  have hlostTwenty := hnearer (x := 0.0 / 0.0) (y := 20.0) (by decide +kernel)
  have htenTwenty := hnearer (x := 10.0) (y := 20.0) (by decide +kernel)
  have htie : NearbyMarker.Before ⟨{ deviceId := "b" }, 20.0⟩ ⟨{ deviceId := "c" }, 20.0⟩ :=
    NearbyMarker.before_iff.mpr (.inr ⟨rfl, by decide⟩)
  have harranged : IsArrangement (candidates away bins 50.0)
      [⟨{ deviceId := "lost" }, 0.0 / 0.0⟩, ⟨{ deviceId := "d" }, 10.0⟩, ⟨{ deviceId := "b" }, 20.0⟩,
        ⟨{ deviceId := "c" }, 20.0⟩] := by
    rw [hall]
    refine ⟨List.perm_append_singleton _ [_, _, _], ?_⟩
    simp [hlostTen, hlostTwenty, htenTwenty, htie]
  rw [hnearest, ← hunique _ harranged]
  rfl

end Square

end BinFleet

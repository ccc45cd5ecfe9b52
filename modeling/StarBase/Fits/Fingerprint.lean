import StarBase.Fits
import StarBase.Lib.Separated

/-!
# What a fingerprint identifies

The digested text is the seven identity values with a bar behind each.

* `identityValues` — the first values of the seven keywords;
* `fingerprintMaterial_iff` — **PROVED**: the text tells an HDU's values from all others exactly if none
  of them holds a bar, and no other card has a part in it.
-/

namespace StarBase

open Separated

/-- The first value of each identity keyword, empty where the card is absent. -/
def identityValues (h : Hdu) : List Str := fingerprintFields.map fun f => (h.get f).getD []

/-- A card with one of the seven keywords, in any letter case. -/
def Card.isIdentity (c : Card) : Bool := fingerprintFields.contains (upper c.keyword)

theorem fingerprintMaterial_eq (h : Hdu) : fingerprintMaterial h = terminated '|' (identityValues h) := by
  unfold fingerprintMaterial terminated identityValues
  rw [List.flatMap_map]

/-- The keywords are written in capitals. -/
theorem upper_fingerprintField {f : Str} (hf : f ∈ fingerprintFields) : upper f = f := by
  revert f
  decide

/-- The lookup of an identity keyword passes over the other cards. -/
theorem get_eq_filter (h : Hdu) {f : Str} (hf : f ∈ fingerprintFields) :
    h.get f = ((h.cards.filter Card.isIdentity).find?
      fun c => upper c.keyword = upper f).map Card.value := by
  unfold Hdu.get
  rw [List.find?_filter]
  congr 2
  funext c
  refine decide_eq_decide.mpr ⟨fun hc => ⟨?_, decide_eq_true hc⟩, fun hc => of_decide_eq_true hc.2⟩
  rw [upper_fingerprintField hf] at hc
  exact List.contains_iff_mem.mpr (hc ▸ hf)

theorem identityValues_congr {h h' : Hdu}
    (hcards : h.cards.filter Card.isIdentity = h'.cards.filter Card.isIdentity) :
    identityValues h = identityValues h' := by
  refine List.map_congr_left fun f hf => ?_
  rw [get_eq_filter h hf, get_eq_filter h' hf, hcards]

/-! ### Every list of seven values -/

/-- An HDU with the given identity values and no other card. -/
def hduOf (vs : List Str) : Hdu :=
  ⟨0, true, 16, 2, 1, 1, (fingerprintFields.zip vs).map fun fv => ⟨fv.1, fv.2, []⟩⟩

theorem identityValues_hduOf {vs : List Str} (hlen : vs.length = 7) : identityValues (hduOf vs) = vs := by
  obtain ⟨a, b, c, d, e, f, g, rfl⟩ : ∃ a b c d e f g, vs = [a, b, c, d, e, f, g] := by
    match vs, hlen with
    | [a, b, c, d, e, f, g], _ => exact ⟨a, b, c, d, e, f, g, rfl⟩
  rfl

/-! ### The fingerprint's text -/

/-- None of the identity values holds a bar. -/
def BarFree (h : Hdu) : Prop := Free '|' (identityValues h)

/-- An HDU's text differs from those of all HDUs with other values exactly if its values are free of
bars. -/
theorem material_tells_iff (h : Hdu) :
    (∀ h', fingerprintMaterial h' = fingerprintMaterial h ↔ identityValues h' = identityValues h) ↔
      BarFree h := by
  have hlen : ∀ h : Hdu, (identityValues h).length = 7 := fun _ => rfl
  have hinj : (∀ ws, ws.length = (identityValues h).length →
      (terminated '|' ws = terminated '|' (identityValues h) ↔ ws = identityValues h)) ↔
        Free '|' (identityValues h) := terminated_inj_iff (by rw [hlen]; decide)
  unfold BarFree
  rw [← hinj]
  constructor
  · intro hall ws hws
    have hvalues := identityValues_hduOf (hws.trans (hlen h))
    have := hall (hduOf ws)
    rwa [fingerprintMaterial_eq, fingerprintMaterial_eq, hvalues] at this
  · intro hall h'
    rw [fingerprintMaterial_eq, fingerprintMaterial_eq]
    exact hall _ ((hlen h').trans (hlen h).symm)

/-- **What the fingerprint identifies.**  The digested text tells an HDU's seven values from all others
exactly if none of them holds a bar; and HDUs with the same identity cards in the same order, whatever
their other cards, have the same text. -/
theorem fingerprintMaterial_iff (h : Hdu) :
    ((∀ h', fingerprintMaterial h' = fingerprintMaterial h ↔
        identityValues h' = identityValues h) ↔ BarFree h) ∧
      ∀ h' : Hdu, h.cards.filter Card.isIdentity = h'.cards.filter Card.isIdentity →
        fingerprintMaterial h = fingerprintMaterial h' := by
  refine ⟨material_tells_iff h, fun h' hcards => ?_⟩
  rw [fingerprintMaterial_eq, fingerprintMaterial_eq, identityValues_congr hcards]

/-- The date `a|b` without a camera has the text of the date `a` with the camera `b|`. -/
theorem bar_collides :
    fingerprintMaterial (hduOf ["a|b".toList, [], [], [], [], [], []]) =
      fingerprintMaterial (hduOf ["a".toList, "b|".toList, [], [], [], [], []]) ∧
    identityValues (hduOf ["a|b".toList, [], [], [], [], [], []]) ≠
      identityValues (hduOf ["a".toList, "b|".toList, [], [], [], [], []]) := by
  decide

end StarBase

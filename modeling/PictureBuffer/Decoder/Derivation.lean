import PictureBuffer.Decoder.Basic

/-!
# Derivation of the reference picture set

The header of a slice names the pictures that must stay available, as **candidates**: each by a
picture order count, with the subset it belongs to and the marking it gets (8.3.2).

`Decoder.deriveSets` takes the marking off all pictures but the current one, then goes through
the candidates in order. One that the buffer holds is marked and entered into its subset; for
one that is missing a stand-in is made first. The derivation ends at the first candidate that
fails; in any case, pictures left without a flag are removed at the end.

The stand-ins of the previous derivation are removed before the first candidate.

Model of `frame_rps` (`deriveSets`), `add_rps_candidates` (`addHeader`) and `add_candidate_ref`
(`addCandidate`).
-/

namespace PictureBuffer

/-- A picture named by a slice header as a reference. -/
structure Candidate where
  subset : Subset
  poc : Int
  marking : Marking
  /-- All bits of the order count are given, not only the low ones. -/
  fullPoc : Bool
  deriving DecidableEq, Repr

namespace SliceHeader

/-- Candidates from the short-term set of a picture with order count `poc`. -/
def shortTermCandidates (st : ShortTermSet) (poc : Int) : List Candidate :=
  st.deltas.mapIdx fun i delta =>
    { subset :=
        if !st.used[i]?.getD false then .stFoll
        else if i < st.numNegative then .stCurrBefore
        else .stCurrAfter
      poc := wrapSigned 32 (poc + delta)
      marking := .shortTerm
      fullPoc := true }

/-- Candidates from the long-term set. -/
def longTermCandidates (lt : LongTermSet) : List Candidate :=
  lt.pocs.mapIdx fun i poc =>
    { subset := if lt.used[i]?.getD false then .ltCurr else .ltFoll
      poc
      marking := .longTerm
      fullPoc := lt.fullPoc[i]?.getD false }

/-- The candidates of a picture's own layer. Without a short-term set there are none: the
long-term set is then not read. -/
def candidates (hdr : SliceHeader) (poc : Int) : List Candidate :=
  match hdr.shortTerm with
  | none => []
  | some st => shortTermCandidates st poc ++ longTermCandidates hdr.longTerm

end SliceHeader

namespace Decoder

/-- The slot of a candidate: one that holds it, or else a new one for its stand-in. -/
def locate (d : Decoder) (layer : Nat) (l : Layer) (sps : Sps) (found : Option Nat) (poc : Int) :
    Except Fault Nat × Decoder :=
  match found with
  | some index => (.ok index, d)
  | none =>
    let new := d.describe layer sps poc .standIn
    let (result, dpb, store) := l.dpb.insertStandIn d.store sps new (!d.config.accelerated)
    (result, { d with layers := d.layers.set layer { l with dpb }, store })

/-- Enters a candidate into its subset and marks its picture. A candidate that turns out to be
the current picture, or finds its subset full, is refused. -/
def addCandidate (d : Decoder) (layer : Nat) (c : Candidate) : Except Fault Unit × Decoder :=
  match d.activeLayer layer with
  | .error fault => (.error fault, d)
  | .ok (l, sps) =>
    let lookup : Dpb.Lookup := if c.fullPoc then .full else .low sps.log2PocLsb d.poc
    let found := l.dpb.find? lookup c.poc
    if found.any (fun index => d.current = some ⟨layer, index⟩) || (d.sets.get c.subset).isFull
    then (.error (.duplicateOrMissingReference c.poc), d)
    else
      match d.locate layer l sps found c.poc with
      | (.error fault, d) => (.error fault, d)
      | (.ok index, d) =>
        let entry : RefEntry :=
          { poc := ((d.slot? ⟨layer, index⟩).map (·.poc)).getD c.poc
            slot := ⟨layer, index⟩
            longTerm := c.marking = .longTerm }
        let d := d.modifyDpb layer (·.mark index c.marking)
        (.ok (), { d with sets := d.sets.push c.subset entry })

/-- Enters candidates in order, up to the first that is refused. -/
def addCandidates (d : Decoder) (layer : Nat) : List Candidate → Except Fault Unit × Decoder
  | [] => (.ok (), d)
  | c :: rest =>
    match d.addCandidate layer c with
    | (.error fault, d) => (.error fault, d)
    | (.ok (), d) => d.addCandidates layer rest

/-- Enters the base layer's current picture, if there is one, as the inter-layer reference of a
picture of `layer`. It is marked as short-term, F.8.1.6. -/
def addInterLayer (d : Decoder) (layer : Nat) : Except Fault Unit × Decoder :=
  if layer = 0 then (.error .interLayerOnBaseLayer, d)
  else
    match d.layers.base.current.bind d.layers.base.dpb.slot? with
    | none => (.ok (), d)
    | some slot => d.addCandidate 0 ⟨.interLayer0, slot.poc, .shortTerm, true⟩

/-- Enters all candidates of a slice header. -/
def addHeader (d : Decoder) (layer : Nat) (hdr : SliceHeader) : Except Fault Unit × Decoder :=
  match d.addCandidates layer (hdr.candidates d.poc) with
  | (.error fault, d) => (.error fault, d)
  | (.ok (), d) => if hdr.interLayer then d.addInterLayer layer else (.ok (), d)

/-- The current picture's slot, if it is one of `layer`. -/
def currentIn (d : Decoder) (layer : Nat) : Option Nat :=
  match d.current with
  | none => none
  | some ref => if ref.layer = layer then some ref.index else none

/-- Forgets the previous derivation in `layer`: removes its stand-ins, takes the marking off every
picture but the current one, and empties the sets. -/
def clearSets (d : Decoder) (layer : Nat) : Decoder :=
  let d := d.onDpb layer Dpb.removeStandIns
  let d := d.modifyDpb layer (·.unmarkExcept (d.currentIn layer))
  { d with sets := {} }

/-- Derives the reference picture set of the current picture of `layer` from a slice header, and
marks the pictures of the layer accordingly. -/
def deriveSets (d : Decoder) (layer : Nat) (hdr : SliceHeader) : Except Fault Unit × Decoder :=
  match d.layer? layer with
  | none => (.error (.invalidLayer layer), d)
  | some _ =>
    let (result, d) := (d.clearSets layer).addHeader layer hdr
    (result, d.onDpb layer Dpb.sweep)

end Decoder

end PictureBuffer

import Externs.Layout.Listing

/-!
# Scripts

A script builds a listing step by step. The body of a block may fail; then the
margin of the block is taken back and its closing line is left out.
-/

set_option autoImplicit false

namespace Externs.Layout

inductive BlockKind where
  | doc
  | braced
  deriving DecidableEq, Repr

inductive Start where
  | empty (width : Nat)
  | line (content : String)
  deriving DecidableEq, Repr

inductive Step where
  | append (line : String)
  | blank
  | inline (content : String)
  | comment (content : String)
  | commentInline (content : String) (hanging : Nat)
  | trimEnd
  /-- Adds the lines of another listing, the first one to the last line unless
  they are to start on a new line. -/
  | concat (start : Start) (steps : List Step) (newLine : Bool)
  /-- A block, whose body may fail at its end. -/
  | block (kind : BlockKind) (body : List Step) (fails : Bool)

/-- A step that is done, and the lines after it. -/
structure Snapshot where
  step : Step
  lines : List String

def Start.listing : Start → Listing
  | .empty width => .ofWidth width
  | .line content => .ofLine content

namespace BlockKind

def opened : BlockKind → Listing → Listing
  | .doc => Listing.openDoc
  | .braced => Listing.openBrace

def left : BlockKind → Listing → Listing
  | .doc => Listing.leaveDoc
  | .braced => Listing.leaveBrace

def closed : BlockKind → Listing → Listing
  | .doc => Listing.closeDoc
  | .braced => Listing.closeBrace

end BlockKind

mutual

/-- Runs a step, and gives the snapshots of the steps in it. -/
def Step.run (listing : Listing) : Step → Listing × List Snapshot
  | .append line => (listing.append line, [])
  | .blank => (listing.blank, [])
  | .inline content => (listing.inline content, [])
  | .comment content => (listing.comment content, [])
  | .commentInline content hanging => (listing.commentInline content hanging, [])
  | .trimEnd => (listing.trimEnd, [])
  | .concat start steps newLine =>
      let lines := (runAll start.listing steps).1.lines
      (if newLine then listing.appendAll lines else listing.splice lines, [])
  | .block kind body fails =>
      let (inside, snapshots) := runAll (kind.opened listing) body
      (if fails then kind.left inside else kind.closed inside, snapshots)

/-- Runs steps one after the other. The snapshot of a step follows those of the
steps in it. -/
def runAll (listing : Listing) : List Step → Listing × List Snapshot
  | [] => (listing, [])
  | step :: rest =>
      let (next, inner) := step.run listing
      let (last, later) := runAll next rest
      (last, inner ++ ⟨step, next.lines⟩ :: later)

end

end Externs.Layout

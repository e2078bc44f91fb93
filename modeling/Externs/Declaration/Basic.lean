import Externs.TypeExpr.Basic
import Externs.Layout.Listing

/-!
# Declarations

A declaration is a doc comment and the statement that it documents. This module
says what a declaration is made of and how it is laid out; it can always be laid
out.
-/

set_option autoImplicit false

namespace Externs

open Layout (Listing)

inductive DocItem where
  /-- Prose, which is wrapped. -/
  | prose (content : String)
  /-- A line that stays as it is. -/
  | line (content : String)
  /-- `@word {type} name remark`, with the remark wrapped. -/
  | tag (word : String) (type : TypeExpr) (name : Option String) (remark : Option String)
  deriving DecidableEq, Repr

/-- A doc comment and the lines of the statement after it. -/
structure Declaration where
  doc : List DocItem
  statement : List String
  deriving DecidableEq, Repr

/-- How far the lines of a wrapped remark hang in. -/
def DocItem.hanging : Nat := 4

def DocItem.write : DocItem → Listing → Listing
  | .prose content, listing => listing.comment content
  | .line content, listing => listing.append content
  | .tag word type name remark, listing =>
      let closing :=
        match name with
        | some name => "\x7d " ++ name
        | none => "\x7d"
      let tagged :=
        ((listing.append ("@" ++ word ++ " \x7b")).splice type.lines).inline closing
      match remark with
      | some remark => tagged.commentInline (" " ++ remark) hanging
      | none => tagged

/-- Writes the items of a doc comment in order. -/
def writeItems (items : List DocItem) (listing : Listing) : Listing :=
  items.foldl (fun listing item => item.write listing) listing

def Declaration.write (declaration : Declaration) (listing : Listing) : Listing :=
  (writeItems declaration.doc listing.openDoc).closeDoc.appendAll declaration.statement

inductive Block where
  | single (declaration : Declaration)
  /-- Declarations that belong together, with a blank line after each. -/
  | cluster (declarations : List Declaration)
  deriving DecidableEq, Repr

def Block.write : Block → Listing → Listing
  | .single declaration, listing => declaration.write listing
  | .cluster declarations, listing =>
      declarations.foldl (fun listing declaration => (declaration.write listing).blank) listing

end Externs

import Retag.Text.Basic

/-! Tables from names to values. Entries stand in the order of their names, which is the order of
the names' UTF-8 bytes, and each name has one entry. -/
namespace Retag

abbrev Table (α : Type) := List (Text × α)

namespace Table

def get? (table : Table α) (name : Text) : Option α := table.lookup name

/-- Adds an entry in its place, or replaces the one of that name. -/
def insert (name : Text) (value : α) : Table α → Table α
  | [] => [(name, value)]
  | entry :: entries =>
    if name < entry.1 then (name, value) :: entry :: entries
    else if name = entry.1 then (name, value) :: entries
    else entry :: insert name value entries

/-- The table of a list of entries. Of two entries with one name the later counts. -/
def ofEntries (entries : List (Text × α)) : Table α :=
  entries.foldl (fun table (name, value) => table.insert name value) []

end Table
end Retag

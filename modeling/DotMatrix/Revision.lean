namespace DotMatrix

/-- The board revisions. They differ in what the start-up program leaves behind. -/
inductive Revision
  | rev0 | revA | revB | revC
  deriving DecidableEq

namespace Revision

/-- The revision of a machine for which none is named. -/
def standard : Revision := revC

/-- The divider when the first cartridge instruction is fetched. -/
def bootDivider : Revision → UInt16
  | rev0 => 0x1830
  | revA | revB | revC => 0xABCC

end Revision

end DotMatrix

import CandyDrop.Address.Basic

/-!
# Addresses with a fixed meaning

Programs that transactions call, and the accounts through which the cluster shows its own state.
-/

namespace CandyDrop.Address

/-- The program that creates accounts: `11111111111111111111111111111111`. -/
def systemProgram : Address where
  bytes :=
    [0x00, 0x00, 0x00, 0x00, 0x00, 0x00, 0x00, 0x00, 0x00, 0x00, 0x00, 0x00, 0x00, 0x00, 0x00, 0x00,
     0x00, 0x00, 0x00, 0x00, 0x00, 0x00, 0x00, 0x00, 0x00, 0x00, 0x00, 0x00, 0x00, 0x00, 0x00, 0x00]
  length_bytes := rfl

/-- The program that owns mints and token accounts:
`TokenkegQfeZyiNwAJbNbGKPFXCWuBvf9Ss623VQ5DA`. -/
def tokenProgram : Address where
  bytes :=
    [0x06, 0xdd, 0xf6, 0xe1, 0xd7, 0x65, 0xa1, 0x93, 0xd9, 0xcb, 0xe1, 0x46, 0xce, 0xeb, 0x79, 0xac,
     0x1c, 0xb4, 0x85, 0xed, 0x5f, 0x5b, 0x37, 0x91, 0x3a, 0x8c, 0xf5, 0x85, 0x7e, 0xff, 0x00, 0xa9]
  length_bytes := rfl

/-- The program that derives token accounts of wallets:
`ATokenGPvbdGVxr1b2hvZbsiqW5xWH25efTNsLJA8knL`. -/
def associatedTokenProgram : Address where
  bytes :=
    [0x8c, 0x97, 0x25, 0x8f, 0x4e, 0x24, 0x89, 0xf1, 0xbb, 0x3d, 0x10, 0x29, 0x14, 0x8e, 0x0d, 0x83,
     0x0b, 0x5a, 0x13, 0x99, 0xda, 0xff, 0x10, 0x84, 0x04, 0x8e, 0x7b, 0xd8, 0xdb, 0xe9, 0xf8, 0x59]
  length_bytes := rfl

/-- The program that owns token metadata and editions:
`metaqbxxUerdq28cj1RbAWkYQm3ybzjb6a8bt518x1s`. -/
def metadataProgram : Address where
  bytes :=
    [0x0b, 0x70, 0x65, 0xb1, 0xe3, 0xd1, 0x7c, 0x45, 0x38, 0x9d, 0x52, 0x7f, 0x6b, 0x04, 0xc3, 0xcd,
     0x58, 0xb8, 0x6c, 0x73, 0x1a, 0xa0, 0xfd, 0xb5, 0x49, 0xb6, 0xd1, 0xbc, 0x03, 0xf8, 0x29, 0x46]
  length_bytes := rfl

/-- The candy machine program, version 2: `cndy3Z4yapfJBmL3ShUp5exZKqR3z33thTzeNMm2gRZ`. -/
def candyMachineProgram : Address where
  bytes :=
    [0x09, 0x2a, 0xee, 0x3d, 0xfc, 0x2d, 0x0e, 0x55, 0x78, 0x23, 0x13, 0x83, 0x79, 0x69, 0xea, 0xf5,
     0x21, 0x51, 0xc0, 0x96, 0xc0, 0x6b, 0x5c, 0x2a, 0x82, 0xf0, 0x86, 0xa5, 0x03, 0xe8, 0x2c, 0x34]
  length_bytes := rfl

/-- The program that issues gateway tokens: `gatem74V238djXdzWnJf94Wo1DcnuGkfijbf3AuBhfs`. -/
def gatewayProgram : Address where
  bytes :=
    [0x0a, 0x23, 0xf8, 0xc1, 0x9c, 0x0a, 0x4d, 0xff, 0xf5, 0xf5, 0x2f, 0x26, 0xae, 0xc8, 0x54, 0x3a,
     0x62, 0x2a, 0x0c, 0xc5, 0xc6, 0x1e, 0x51, 0x19, 0x3e, 0x9d, 0x49, 0x13, 0xdc, 0xc4, 0xab, 0x5e]
  length_bytes := rfl

/-- The sysvar of the rent: `SysvarRent111111111111111111111111111111111`. -/
def rentSysvar : Address where
  bytes :=
    [0x06, 0xa7, 0xd5, 0x17, 0x19, 0x2c, 0x5c, 0x51, 0x21, 0x8c, 0xc9, 0x4c, 0x3d, 0x4a, 0xf1, 0x7f,
     0x58, 0xda, 0xee, 0x08, 0x9b, 0xa1, 0xfd, 0x44, 0xe3, 0xdb, 0xd9, 0x8a, 0x00, 0x00, 0x00, 0x00]
  length_bytes := rfl

/-- The sysvar of the clock: `SysvarC1ock11111111111111111111111111111111`. -/
def clockSysvar : Address where
  bytes :=
    [0x06, 0xa7, 0xd5, 0x17, 0x18, 0xc7, 0x74, 0xc9, 0x28, 0x56, 0x63, 0x98, 0x69, 0x1d, 0x5e, 0xb6,
     0x8b, 0x5e, 0xb8, 0xa3, 0x9b, 0x4b, 0x6d, 0x5c, 0x73, 0x55, 0x5b, 0x21, 0x00, 0x00, 0x00, 0x00]
  length_bytes := rfl

/-- The sysvar of recent slot hashes: `SysvarS1otHashes111111111111111111111111111`. -/
def slotHashesSysvar : Address where
  bytes :=
    [0x06, 0xa7, 0xd5, 0x17, 0x19, 0x2f, 0x0a, 0xaf, 0xc6, 0xf2, 0x65, 0xe3, 0xfb, 0x77, 0xcc, 0x7a,
     0xda, 0x82, 0xc5, 0x29, 0xd0, 0xbe, 0x3b, 0x13, 0x6e, 0x2d, 0x00, 0x55, 0x20, 0x00, 0x00, 0x00]
  length_bytes := rfl

/-- The sysvar of the instructions of the running transaction:
`Sysvar1nstructions1111111111111111111111111`. -/
def instructionsSysvar : Address where
  bytes :=
    [0x06, 0xa7, 0xd5, 0x17, 0x18, 0x7b, 0xd1, 0x66, 0x35, 0xda, 0xd4, 0x04, 0x55, 0xfd, 0xc2, 0xc0,
     0xc1, 0x24, 0xc6, 0x8f, 0x21, 0x56, 0x75, 0xa5, 0xdb, 0xba, 0xcb, 0x5f, 0x08, 0x00, 0x00, 0x00]
  length_bytes := rfl

end CandyDrop.Address

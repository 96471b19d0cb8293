import ItemSeal.Service.Transport
import ItemSeal.Store.OutputJson

/-!
The operations of a store: what each one's answers and known errors look like, and
how its answers are read.
-/

namespace ItemSeal.Store

open Shape (texts reals times longs item)

/-! ## Known errors -/

/-- The errors whose bodies tell why the rate is too high, with the name that
the reasons are under. -/
def throttlingErrors : List (String × String) :=
  [("ProvisionedThroughputExceededException", "ThrottlingReasons"),
    ("RequestLimitExceeded", "ThrottlingReasons"), ("ThrottlingException", "throttlingReasons")]

/-- What the body of a known error looks like. -/
def errorShape (code : String) : Shape :=
  if code = "InvalidEndpointException" then .record [("Message", .text)]
  else
    let reasons := (throttlingErrors.lookup code).toList.map fun name =>
      (name, .list (.record (texts ["reason", "resource"])))
    let found := if code = "ConditionalCheckFailedException" then [("Item", item)] else []
    .record (("message", .text) :: reasons ++ found)

/-- The error of that code. -/
def knownError (code : String) : KnownError where
  code
  shape := errorShape code

/-- The known errors of all operations. -/
def commonErrors : List String :=
  ["InternalServerError", "InvalidEndpointException"]

/-- The known errors of all operations about items. -/
def itemErrors : List String :=
  commonErrors ++ "ResourceNotFoundException" :: throttlingErrors.map (·.1)

/-- The known errors of batches of writes. -/
def batchWriteErrors : List String :=
  itemErrors ++ ["ItemCollectionSizeLimitExceededException", "ReplicatedWriteConflictException"]

/-- The known errors of single writes. -/
def writeErrors : List String :=
  batchWriteErrors ++ ["ConditionalCheckFailedException", "TransactionConflictException"]

/-! ## Answers about items -/

/-- Units of consumption. -/
def capacityMembers : List (String × Shape) :=
  reals ["CapacityUnits", "ReadCapacityUnits", "WriteCapacityUnits"]

/-- What was consumed, as a whole and by the table and its indexes. -/
def consumedShape : Shape :=
  let capacity := .record capacityMembers
  .record (("TableName", .text) :: capacityMembers ++
    [("Table", capacity), ("LocalSecondaryIndexes", .map capacity),
      ("GlobalSecondaryIndexes", .map capacity)])

/-- The size of a collection of items. -/
def collectionShape : Shape :=
  .record [("ItemCollectionKey", item), ("SizeEstimateRangeGB", .list .real)]

/-- The answer to a single write. -/
def writeShape : Shape :=
  .record [("Attributes", item), ("ConsumedCapacity", consumedShape),
    ("ItemCollectionMetrics", collectionShape)]

/-- The answer to a single read. -/
def getShape : Shape :=
  .record [("Item", item), ("ConsumedCapacity", consumedShape)]

/-- The answer to a search. -/
def searchShape : Shape :=
  .record [("Items", .list item), ("Count", .signed 32), ("ScannedCount", .signed 32),
    ("LastEvaluatedKey", item), ("ConsumedCapacity", consumedShape)]

/-- What a batch asks of one table. -/
def keysShape : Shape :=
  .record [("Keys", .list item), ("AttributesToGet", .list .text), ("ConsistentRead", .flag),
    ("ProjectionExpression", .text), ("ExpressionAttributeNames", .map .text)]

/-- The answer to a batch of reads. -/
def batchGetShape : Shape :=
  .record [("Responses", .map (.list item)), ("UnprocessedKeys", .map keysShape),
    ("ConsumedCapacity", .list consumedShape)]

/-- The answer to a batch of writes. -/
def batchWriteShape : Shape :=
  let write := .record [("PutRequest", .record [("Item", item)]),
    ("DeleteRequest", .record [("Key", item)])]
  .record [("UnprocessedItems", .map (.list write)),
    ("ItemCollectionMetrics", .map (.list collectionShape)),
    ("ConsumedCapacity", .list consumedShape)]

/-! ## Answers about tables -/

/-- A key schema. -/
def keySchemaShape : Shape :=
  .list (.record (texts ["AttributeName", "KeyType"]))

/-- The attributes that an index has. -/
def projectionShape : Shape :=
  .record [("ProjectionType", .text), ("NonKeyAttributes", .list .text)]

/-- The throughput that is provided. -/
def throughputShape : Shape :=
  .record (times ["LastIncreaseDateTime", "LastDecreaseDateTime"] ++
    longs ["NumberOfDecreasesToday", "ReadCapacityUnits", "WriteCapacityUnits"])

/-- The throughput that is charged on demand. -/
def onDemandShape : Shape :=
  .record (longs ["MaxReadRequestUnits", "MaxWriteRequestUnits"])

/-- The throughput that can be had at once. -/
def warmShape : Shape :=
  .record (("Status", .text) :: longs ["ReadUnitsPerSecond", "WriteUnitsPerSecond"])

/-- What is told of every index. -/
def indexMembers : List (String × Shape) :=
  texts ["IndexName", "IndexArn"] ++ longs ["IndexSizeBytes", "ItemCount"] ++
    [("KeySchema", keySchemaShape), ("Projection", projectionShape)]

/-- A global index. -/
def globalIndexShape : Shape :=
  .record (indexMembers ++
    [("IndexStatus", .text), ("Backfilling", .flag), ("ProvisionedThroughput", throughputShape),
      ("OnDemandThroughput", onDemandShape), ("WarmThroughput", warmShape)])

/-- Throughput in another region. -/
def replicaThroughputMembers : List (String × Shape) :=
  [("ProvisionedThroughputOverride", .record (longs ["ReadCapacityUnits"])),
    ("OnDemandThroughputOverride", .record (longs ["MaxReadRequestUnits"])),
    ("WarmThroughput", warmShape)]

/-- A copy of a table in another region. -/
def replicaShape : Shape :=
  .record (texts ["RegionName", "ReplicaStatus", "ReplicaArn", "ReplicaStatusDescription",
      "ReplicaStatusPercentProgress", "KMSMasterKeyId", "GlobalTableSettingsReplicationMode"] ++
    times ["ReplicaInaccessibleDateTime"] ++ replicaThroughputMembers ++
    [("GlobalSecondaryIndexes",
      .list (.record (("IndexName", .text) :: replicaThroughputMembers))),
      ("ReplicaTableClassSummary",
        .record [("TableClass", .text), ("LastUpdateDateTime", .time)])])

/-- The description of a table. -/
def tableShape : Shape :=
  .record (texts ["TableName", "TableStatus", "TableArn", "TableId", "LatestStreamLabel",
      "LatestStreamArn", "GlobalTableVersion", "GlobalTableSettingsReplicationMode",
      "MultiRegionConsistency"] ++
    longs ["TableSizeBytes", "ItemCount"] ++ times ["CreationDateTime"] ++
    [("AttributeDefinitions", .list (.record (texts ["AttributeName", "AttributeType"]))),
      ("KeySchema", keySchemaShape), ("DeletionProtectionEnabled", .flag),
      ("LocalSecondaryIndexes", .list (.record indexMembers)),
      ("GlobalSecondaryIndexes", .list globalIndexShape),
      ("ProvisionedThroughput", throughputShape), ("OnDemandThroughput", onDemandShape),
      ("WarmThroughput", warmShape), ("Replicas", .list replicaShape),
      ("GlobalTableWitnesses", .list (.record (texts ["RegionName", "WitnessStatus"]))),
      ("BillingModeSummary",
        .record [("BillingMode", .text), ("LastUpdateToPayPerRequestDateTime", .time)]),
      ("StreamSpecification", .record [("StreamEnabled", .flag), ("StreamViewType", .text)]),
      ("RestoreSummary", .record [("SourceBackupArn", .text), ("SourceTableArn", .text),
        ("RestoreDateTime", .time), ("RestoreInProgress", .flag)]),
      ("SSEDescription", .record [("Status", .text), ("SSEType", .text),
        ("KMSMasterKeyArn", .text), ("InaccessibleEncryptionDateTime", .time)]),
      ("ArchivalSummary", .record [("ArchivalDateTime", .time), ("ArchivalReason", .text),
        ("ArchivalBackupArn", .text)]),
      ("TableClassSummary", .record [("TableClass", .text), ("LastUpdateDateTime", .time)])])

/-! ## Operations -/

/-- The operation of that name. -/
def operation {α : Type} (name : String) (shape : Shape) (known : List String)
    (decode : Json → Option α) : Operation α where
  target := "DynamoDB_20120810." ++ name
  shape
  decode
  known := known.map knownError

/-- Describing a table. -/
def describeOperation : Operation (Option TableDescription) :=
  operation "DescribeTable" (.record [("Table", tableShape)])
    (commonErrors ++ ["ResourceNotFoundException"]) (·.within? "Table" TableDescription.ofJson?)

/-- Listing the names of tables. -/
def listOperation : Operation ListOutput :=
  operation "ListTables"
    (.record [("TableNames", .list .text), ("LastEvaluatedTableName", .text)])
    commonErrors ListOutput.ofJson?

/-- A batch of reads. -/
def batchGetOperation : Operation BatchGetOutput :=
  operation "BatchGetItem" batchGetShape itemErrors (BatchGetOutput.ofJson? .base64)

/-- A batch of writes. -/
def batchWriteOperation : Operation BatchWriteOutput :=
  operation "BatchWriteItem" batchWriteShape batchWriteErrors (BatchWriteOutput.ofJson? .base64)

/-- Storing an item. -/
def putOperation : Operation WriteOutput :=
  operation "PutItem" writeShape writeErrors (WriteOutput.ofJson? .base64)

/-- Reading an item. -/
def getOperation : Operation GetOutput :=
  operation "GetItem" getShape itemErrors (GetOutput.ofJson? .base64)

/-- Deleting an item. -/
def deleteOperation : Operation WriteOutput :=
  operation "DeleteItem" writeShape writeErrors (WriteOutput.ofJson? .base64)

/-- Finding the items with a partition key. -/
def queryOperation : Operation SearchOutput :=
  operation "Query" searchShape itemErrors (SearchOutput.ofJson? .base64)

/-- Going through all items. -/
def scanOperation : Operation SearchOutput :=
  operation "Scan" searchShape itemErrors (SearchOutput.ofJson? .base64)

end ItemSeal.Store
